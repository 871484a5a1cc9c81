import Kapsaro.KvStore
import Kapsaro.MutationCommit
import Kapsaro.ToyRewraps

/-!
# Kv lifetimes — a kv-enc document from its creation on

A document is created for some entries; then come authorized mutations, each decided by a trust
evaluation over the text it works on, and rewraps, each for its own target members.

* **`Authority`**, **`KvMutationChange`**, **`LifetimeOperation`** — who may do what.
* **`step_run`** — an operation on a text is a step of the store the text stands for.
* **`ReadsAs`**, **`lifetimes_read`** — after any of them, whoever decrypts gets the table the
  writes compute, and every member the text was written for can.
* **`KeyedLife`**, **`lifetimes_revoke`** — which operations keep the key in force, and which
  replace it; whoever a rewrap left out was never given the key of the text it is missing from, as
  long as no key is drawn twice.
-/

namespace KvLifetimes

open JsonText JsonMembers JsonLimits Limits TextLines Base64Codec WireTexts WireModel DocumentTokens
open KvLines TokenRecords Envelope KvDocument SignedArtifacts KeyedList KvDraft Recipients KvSession
open RewrapPlan KvRewrap KvMutation KvWriteLimits FormatDetection TrustPolicy TrustEvaluation
open TrustJudgment KvAuthority MutationReview MutationCommit HistoryRuns RewrapKeys SealedStores
open KvStore Dotenv JsonSize ToyCrypto ToyDocuments ToyRewraps

/-! ## Operations -/

/-- Who decides on a mutation, and who it is for. -/
structure Authority where
  evaluator : TrustPolicyEvaluator
  recipients : RecipientKeys
  keyCtx : KeyContext

/-- A mutation of a document. -/
inductive KvMutationChange where
  | set (entries : List KvInputEntry)
  | unset (key : String)
  | importDotenv (dotenvContent : String)

/-- What a mutation has to be authorized for. -/
def KvMutationChange.operation : KvMutationChange → KvMutationOperation
  | .set _ => .set
  | .unset _ => .unset
  | .importDotenv _ => .set

/-- An operation on a document. -/
inductive LifetimeOperation where
  | mutate (authority : Authority) (change : KvMutationChange) (entropy : Entropy)
  | rewrap (draws : RewrapDraws) (ctx : RewrapContext)

section Operations

variable (C : Crypto) (reader : ValueReader) (clock : ExpiryClock)

/-- Verify a text and have a mutation of it decided; an open review ends it. -/
def authorizeKvMutation (authority : Authority) (operation : KvMutationOperation)
    (content : String) : Except Error AuthorizedKvMutation := do
  let doc ← verifyForOperation C reader clock content
  match ← evaluateMutation C clock authority.evaluator content doc authority.recipients
      authority.keyCtx operation with
  | .reviewRequired _ => .error buildMutationReviewChangedError
  | .trusted authorized => pure authorized

/-- Carry out an authorized mutation. -/
def executeAuthorized (mutation : AuthorizedKvMutation) (entropy : Entropy) :
    KvMutationChange → Except Error KvEncArtifact
  | .set entries => mutation.setInternalEntries C reader entries entropy
  | .unset key => mutation.unsetEntry C reader key entropy
  | .importDotenv dotenvContent => mutation.importEntries C reader dotenvContent entropy

/-- Carry out an operation on a text. -/
def LifetimeOperation.run : LifetimeOperation → String → Except Error String
  | .mutate authority change entropy, content => do
    let mutation ← authorizeKvMutation C reader clock authority change.operation content
    let artifact ← executeAuthorized C reader mutation entropy change
    pure artifact.text
  | .rewrap draws ctx, content => rewrapKvDocument C draws content ctx

end Operations

/-! ## What an operation is meant to do -/

/-- The pairs an import puts. -/
def importedPairs (dotenvContent : String) : List (String × String) :=
  match parseDotenvEntries dotenvContent with
  | .ok entries => entries
  | .error _ => []

def KvMutationChange.change : KvMutationChange → SecretChange
  | .set entries => .put (pairsOf entries)
  | .unset key => .erase key
  | .importDotenv dotenvContent => .put (importedPairs dotenvContent)

def LifetimeOperation.change : LifetimeOperation → SecretChange
  | .mutate _ change _ => change.change
  | .rewrap draws _ => .regrant (drawnKeys draws)

/-- Who an operation wraps for. -/
def LifetimeOperation.recipients : LifetimeOperation → List VerifiedRecipientKey
  | .mutate authority _ _ => authority.recipients.keys
  | .rewrap _ ctx => ctx.targetMembers

/-- The entries of a set have valid names; those of an import are checked. -/
def KvMutationChange.WellFormed : KvMutationChange → Prop
  | .set entries => ∀ entry ∈ entries, isValidKeyName entry.key = true
  | _ => True

/-- The target of a rewrap has one member for each handle. -/
def LifetimeOperation.WellFormed : LifetimeOperation → Prop
  | .mutate _ change _ => change.WellFormed
  | .rewrap _ ctx => (ctx.targetMembers.map VerifiedRecipientKey.subjectHandle).Nodup

variable {C : Crypto} {reader : ValueReader} {clock : ExpiryClock}

/-! ## A step -/

/-- What an authorization says: the decision was made on the text, for the recipients and the
    key. -/
theorem authorizeKvMutation_ok {authority : Authority} {operation : KvMutationOperation}
    {content : String} {mutation : AuthorizedKvMutation}
    (h : authorizeKvMutation C reader clock authority operation content = .ok mutation) :
    mutation = ⟨content, authority.recipients, authority.keyCtx, operation⟩
      ∧ ∃ doc artifact, verifyKvContent C content = .ok doc ∧ artifact.wrapItems = doc.wrap.wrap
        ∧ authority.evaluator.evaluateKvMutation C artifact authority.recipients authority.keyCtx
          = .ok .trusted := by
  obtain ⟨doc, hverify, h⟩ := bind_eq_ok.mp h
  obtain ⟨parsed, hparse, hverify⟩ := bind_eq_ok.mp hverify
  obtain ⟨verified, hverified, hverify⟩ := bind_eq_ok.mp hverify
  obtain ⟨_, _, hverify⟩ := bind_eq_ok.mp hverify
  obtain rfl := Except.ok.inj hverify
  obtain ⟨rfl, _⟩ := parse_ok hparse
  obtain ⟨decision, hdecision, h⟩ := bind_eq_ok.mp h
  obtain ⟨artifact, hartifact, hdecision⟩ := bind_eq_ok.mp hdecision
  obtain ⟨signer, _, hartifact⟩ := bind_eq_ok.mp hartifact
  obtain rfl := Except.ok.inj hartifact
  obtain ⟨judged, hjudged, hdecision⟩ := bind_eq_ok.mp hdecision
  cases judged with
  | reviewRequired requests =>
    obtain rfl := Except.ok.inj hdecision
    cases h
  | trusted =>
    obtain ⟨authorized, hauthorized, hdecision⟩ := bind_eq_ok.mp hdecision
    obtain rfl := Except.ok.inj hdecision
    obtain rfl := Except.ok.inj h
    obtain ⟨_, _, hauthorized⟩ := bind_eq_ok.mp hauthorized
    obtain ⟨_, _, hauthorized⟩ := bind_eq_ok.mp hauthorized
    obtain ⟨_, _, hauthorized⟩ := bind_eq_ok.mp hauthorized
    obtain ⟨_, _, hauthorized⟩ := bind_eq_ok.mp hauthorized
    obtain ⟨_, _, hauthorized⟩ := bind_eq_ok.mp hauthorized
    obtain rfl := Except.ok.inj hauthorized
    exact ⟨rfl, verified, _, hverified, rfl, hjudged⟩

/-- A trusted mutation wraps for everybody the document was wrapped for, under the same kid. -/
theorem recipients_of_trusted {evaluator : TrustPolicyEvaluator} {artifact : VerifiedArtifact}
    {recipients : RecipientKeys} {keyCtx : KeyContext}
    (h : evaluator.evaluateKvMutation C artifact recipients keyCtx = .ok .trusted) :
    ∀ item ∈ artifact.wrapItems, recipientOf item ∈ targetTable recipients.keys := by
  obtain ⟨hwraps, _, houtput⟩ := current_of_trusted h
  intro item hitem
  obtain ⟨member, hmem, hkid, hhandle⟩ := hwraps item hitem
  have hrecipient : item.kid ∈ recipients.keys.map VerifiedRecipientKey.kid := by
    rw [houtput.kids.mem_iff, ← hkid]
    exact List.mem_map_of_mem hmem
  obtain ⟨key, hkey, hkeyKid⟩ := List.mem_map.mp hrecipient
  obtain ⟨other, hother, hotherKid, hdocument⟩ := houtput.documents key hkey
  -- the statement of the recipient is that of the member the item is for
  obtain rfl := List.inj_on_of_nodup_map evaluator.members.kids hother hmem
    (hotherKid.trans (hkeyKid.trans hkid.symm))
  refine List.mem_map.mpr ⟨key, hkey, Prod.ext ?_ hkeyKid⟩
  refine Eq.trans ?_ hhandle
  exact congrArg (fun document => document.protect.subjectHandle) hdocument.symm

/-- What an executed mutation wrote, as a set or an unset of the text. -/
theorem executeAuthorized_set {mutation : AuthorizedKvMutation} {entries : List KvInputEntry}
    {entropy : Entropy} {artifact : KvEncArtifact}
    (h : mutation.setInternalEntries C reader entries entropy = .ok artifact) :
    setKvEntryWithRecipients C (some mutation.content) entries (writeRecipients mutation.recipients)
      (writeContext mutation.keyCtx) entropy = .ok artifact.text := by
  obtain ⟨_, _, h⟩ := bind_eq_ok.mp h
  obtain ⟨text, htext, h⟩ := bind_eq_ok.mp h
  rw [(parse_ok h).1]
  exact htext

theorem executeAuthorized_unset {mutation : AuthorizedKvMutation} {key : String}
    {entropy : Entropy} {artifact : KvEncArtifact}
    (h : mutation.unsetEntry C reader key entropy = .ok artifact) :
    unsetKvEntryWithRecipients C mutation.content key (writeRecipients mutation.recipients)
      (writeContext mutation.keyCtx) entropy = .ok artifact.text := by
  obtain ⟨_, _, h⟩ := bind_eq_ok.mp h
  obtain ⟨text, htext, h⟩ := bind_eq_ok.mp h
  rw [(parse_ok h).1]
  exact htext

variable {content text : String} {store : SecretStore} {served members : List VerifiedRecipientKey}

/-- What an executed mutation wrote: the key stays with the recipients, and the table changes. -/
theorem stores_executed (hC : Ideal C) {mutation : AuthorizedKvMutation} {change : KvMutationChange}
    {entropy : Entropy} {artifact : KvEncArtifact} (hchange : change.WellFormed)
    (hserved : mutation.recipients.keys ⊆ served)
    (hbefore : TextStores C served ⟨members, mutation.content⟩ store)
    (h : executeAuthorized C reader mutation entropy change = .ok artifact) :
    TextStores C served ⟨mutation.recipients.keys, artifact.text⟩
      ⟨store.key, handlesOf mutation.recipients.keys, change.change.apply store.table⟩ := by
  cases change with
  | set entries => exact stores_set hC hchange hserved hbefore (executeAuthorized_set h)
  | unset key => exact stores_unset hC hserved hbefore (executeAuthorized_unset h)
  | importDotenv dotenvContent =>
    obtain ⟨entries, hentries, h⟩ := bind_eq_ok.mp h
    have hpairs : pairsOf (entries.map fun entry => ⟨entry.1, entry.2⟩)
        = importedPairs dotenvContent := by
      rw [importedPairs, hentries, pairsOf, List.map_map]
      exact List.map_id entries
    have hvalid : ∀ entry ∈ entries.map fun entry => (⟨entry.1, entry.2⟩ : KvInputEntry),
        isValidKeyName entry.key = true := by
      intro entry hentry
      obtain ⟨pair, hpair, rfl⟩ := List.mem_map.mp hentry
      exact (parseDotenvEntries_ok hentries).2.1 pair hpair
    have hstored := stores_set hC hvalid hserved hbefore (executeAuthorized_set h)
    rw [hpairs] at hstored
    exact hstored

/-- What an operation does to the key of a document for some members: a mutation keeps it, and
    everybody's wrap under the same kid; a rewrap keeps it unless it removes somebody or rotates. -/
def LifetimeOperation.ChangesKey (members : List VerifiedRecipientKey) (key current : MasterKey) :
    LifetimeOperation → Prop
  | .mutate authority _ _ => current = key
      ∧ ∀ member ∈ members, member.identity ∈ targetTable authority.recipients.keys
  | .rewrap draws ctx => RewrapsKey draws members ctx key current

/-- **AN AUTHORIZED MUTATION KEEPS THE KEY** with whoever holds it. -/
theorem stores_mutate (hC : Ideal C) {authority : Authority} {change : KvMutationChange}
    {entropy : Entropy} (hchange : change.WellFormed) (hserved : authority.recipients.keys ⊆ served)
    (hbefore : TextStores C served ⟨members, content⟩ store)
    (h : (LifetimeOperation.mutate authority change entropy).run C reader clock content
      = .ok text) :
    (∀ member ∈ members, member.identity ∈ targetTable authority.recipients.keys)
      ∧ store.holders = handlesOf members
      ∧ TextStores C served ⟨authority.recipients.keys, text⟩ ⟨store.key,
        handlesOf authority.recipients.keys, change.change.apply store.table⟩ := by
  obtain ⟨mutation, hauthorized, h⟩ := bind_eq_ok.mp h
  obtain ⟨artifact, hexecuted, h⟩ := bind_eq_ok.mp h
  obtain rfl := Except.ok.inj h
  obtain ⟨rfl, doc, judged, hverify, hitems, htrusted⟩ := authorizeKvMutation_ok hauthorized
  have hstore := hbefore doc hverify
  refine ⟨fun member hmember => ?_, hstore.holders,
    stores_executed hC hchange hserved hbefore hexecuted⟩
  have hlisted := hstore.recipients.mem_iff.mpr (List.mem_map_of_mem hmember)
  obtain ⟨item, hitem, hidentity⟩ := List.mem_map.mp hlisted
  exact hidentity ▸ recipients_of_trusted htrusted item (hitems ▸ hitem)

/-- **WHAT AN OPERATION DOES** to the store its text stands for. -/
theorem stores_run (hC : Ideal C) {operation : LifetimeOperation} (hop : operation.WellFormed)
    (hserved : operation.recipients ⊆ served)
    (hbefore : TextStores C served ⟨members, content⟩ store)
    (h : operation.run C reader clock content = .ok text) :
    ∃ next : SecretStore, operation.ChangesKey members store.key next.key
      ∧ next.table = operation.change.apply store.table
      ∧ store.holders = handlesOf members ∧ next.holders = handlesOf operation.recipients
      ∧ TextStores C served ⟨operation.recipients, text⟩ next := by
  cases operation with
  | mutate authority change entropy =>
    obtain ⟨hkept, hholders, hstores⟩ := stores_mutate hC hop hserved hbefore h
    exact ⟨⟨store.key, handlesOf authority.recipients.keys, change.change.apply store.table⟩,
      ⟨rfl, hkept⟩, rfl, hholders, rfl, hstores⟩
  | rewrap draws ctx =>
    obtain ⟨masterKey, hkey, hholders, hstores⟩ := stores_rewrap hC hop hserved hbefore h
    exact ⟨rewrappedStore store masterKey ctx.targetMembers, hkey, rfl, hholders, rfl, hstores⟩

/-- Whoever has a wrap under the same kid has one. -/
theorem handles_of_identities {others : List VerifiedRecipientKey}
    (h : ∀ member ∈ members, member.identity ∈ targetTable others) :
    handlesOf members ⊆ handlesOf others := by
  intro handle hhandle
  obtain ⟨member, hmember, rfl⟩ := List.mem_map.mp hhandle
  obtain ⟨other, hother, hidentity⟩ := List.mem_map.mp (h member hmember)
  exact List.mem_map.mpr ⟨other, hother, congrArg Prod.fst hidentity⟩

/-- **AN OPERATION IS A STEP** of the store its text stands for. -/
theorem step_run (hC : Ideal C) {operation : LifetimeOperation} (hop : operation.WellFormed)
    (hserved : operation.recipients ⊆ served)
    (hbefore : TextStores C served ⟨members, content⟩ store)
    (h : operation.run C reader clock content = .ok text) :
    ∃ next, Step operation.change store next
      ∧ TextStores C served ⟨operation.recipients, text⟩ next := by
  obtain ⟨next, hkey, htable, hholders, hnext, hstores⟩ := stores_run hC hop hserved hbefore h
  refine ⟨next, ?_, hstores⟩
  cases operation with
  | mutate authority change entropy =>
    refine .kept hkey.1 ?_ htable
    rw [hholders, hnext]
    exact handles_of_identities hkey.2
  | rewrap draws ctx => exact hkey.step hholders hnext htable

/-- **A RUN OF OPERATIONS IS A RUN OF STORES.** -/
theorem stores_of_run (hC : Ideal C) {operations : List LifetimeOperation} {texts : List String}
    (hops : ∀ operation ∈ operations, operation.WellFormed ∧ operation.recipients ⊆ served)
    (hbefore : TextStores C served ⟨members, content⟩ store)
    (h : runTexts (LifetimeOperation.run C reader clock) content operations = .ok texts) :
    ∃ stores, Run store (operations.map LifetimeOperation.change) stores
      ∧ List.Forall₂ (TextStores C served)
        (wrappedTexts LifetimeOperation.recipients operations texts) stores := by
  refine Trace.simulated (fun hdoes hstands => ?_)
    (trace_of_runTexts LifetimeOperation.recipients ⟨members, content⟩ hops h) hbefore
  obtain ⟨⟨hop, hserved⟩, hmembers, hrun⟩ := hdoes
  have hstep := step_run hC hop hserved hstands hrun
  rw [← hmembers] at hstep
  exact hstep

/-! ## Reading -/

/-- A text reads as a table, for the members it was written for. -/
structure ReadsAs (C : Crypto) (written : WrappedText) (table : String → Option String) : Prop where
  /-- whoever decrypts it gets the values of the table, each name once -/
  sound : ∀ {doc handle keyCtx values}, verifyKvContent C written.text = .ok doc →
    decryptKvDocumentWithContext C doc handle keyCtx = .ok values →
    (values.map Prod.fst).Nodup ∧ ∀ key, values.lookup key = (table key).map utf8
  /-- it is wrapped for the members, and for nobody else -/
  recipients : ∀ {doc}, verifyKvContent C written.text = .ok doc →
    (recipientTable doc.wrap.wrap).Perm (targetTable written.members)
  /-- and each of them can decrypt it, with the secret behind the statement it was wrapped for -/
  complete : ∀ {doc}, verifyKvContent C written.text = .ok doc → ∀ member ∈ written.members,
    ∀ {kemSecret keyCtx}, HoldsKey C member kemSecret →
      OpensOwn keyCtx member.subjectHandle member.kid kemSecret →
      ∃ values, decryptKvDocumentWithContext C doc member.subjectHandle keyCtx = .ok values

/-- **A TEXT READS AS THE TABLE OF ITS STORE.** -/
theorem readsAs_of_stores {written : WrappedText} (hone : OneStatement served)
    (h : TextStores C served written store) : ReadsAs C written store.table := by
  constructor
  · intro doc handle keyCtx values hverify hdecrypt
    have hstore := h doc hverify
    obtain ⟨masterKey, hunwrap, _, hvalues⟩ := values_of_decrypt hdecrypt
    obtain rfl := key_of_unwrap hstore hunwrap
    obtain ⟨stored, hstored, hlookup⟩ := hstore.opens
    obtain rfl := Except.ok.inj (hstored.symm.trans hvalues)
    refine ⟨?_, hlookup⟩
    rw [keys_of_decryptKvEntries hvalues]
    exact distinct_of_verify hverify
  · exact fun hverify => (h _ hverify).recipients
  · intro doc hverify member hmember kemSecret keyCtx hholds hown
    have hstore := h doc hverify
    -- the wrap of the member, which opens for it
    have hlisted := hstore.recipients.mem_iff.mpr (List.mem_map_of_mem hmember)
    obtain ⟨item, hitem, hidentity⟩ := List.mem_map.mp hlisted
    have hopens := (hstore.seals item hitem).opens hone (hstore.known hmember) hidentity.symm hholds
    obtain ⟨values, hvalues, _⟩ := hstore.opens
    obtain ⟨hhandle, hkid⟩ := Prod.mk.inj hidentity
    rw [← hhandle, ← hkid] at hown
    have hunwrap := unwrap_of_member (wraps_of_verifyKv hverify) hitem hown hopens
    refine ⟨values, bind_eq_ok.mpr ⟨_, ?_, bind_eq_ok.mpr ⟨(), hstore.possession, hvalues⟩⟩⟩
    rw [← hhandle]
    exact hunwrap

section Lifetimes

variable {entries : List KvInputEntry} {recipients : KvRecipientSnapshot} {ctx : KvWriteContext}
variable {entropy : Entropy} {operations : List LifetimeOperation} {texts : List String}

/-- Everybody a document is wrapped for in its life. -/
def servedBy (recipients : KvRecipientSnapshot) (operations : List LifetimeOperation) :
    List VerifiedRecipientKey :=
  recipients.verifiedMembers ++ operations.flatMap LifetimeOperation.recipients

theorem created_servedBy (recipients : KvRecipientSnapshot) (operations : List LifetimeOperation) :
    recipients.verifiedMembers ⊆ servedBy recipients operations :=
  List.subset_append_left _ _

theorem recipients_servedBy {operation : LifetimeOperation} (h : operation ∈ operations) :
    operation.recipients ⊆ servedBy recipients operations :=
  fun _ hmember => List.mem_append_right _ (List.mem_flatMap.mpr ⟨operation, h, hmember⟩)

/-- **A LIFETIME READS AS A TABLE**: after the creation and after each operation, a text reads as
    what the writes so far put and erased, whatever the rewraps in between did. -/
theorem lifetimes_read (hC : Ideal C)
    (hvalid : ∀ entry ∈ entries, isValidKeyName entry.key = true)
    (hops : ∀ operation ∈ operations, operation.WellFormed)
    (hone : OneStatement (servedBy recipients operations))
    (hcreated : setKvEntryWithRecipients C none entries recipients ctx entropy = .ok content)
    (hrun : runTexts (LifetimeOperation.run C reader clock) content operations = .ok texts) :
    List.Forall₂ (ReadsAs C)
      (⟨recipients.verifiedMembers, content⟩
        :: wrappedTexts LifetimeOperation.recipients operations texts)
      (putAll (fun _ => none) (pairsOf entries)
        :: tablesAfter (putAll (fun _ => none) (pairsOf entries))
          (operations.map LifetimeOperation.change)) := by
  have hcontent := stores_created hC (created_servedBy recipients operations) hvalid hcreated
  obtain ⟨stores, hstores, hall⟩ := stores_of_run hC
    (fun operation hop => ⟨hops operation hop, recipients_servedBy hop⟩) hcontent hrun
  rw [← table_createdStore entries recipients entropy, ← tables_of_run hstores]
  exact .cons (readsAs_of_stores hone hcontent)
    (List.forall₂_map_right_iff.mpr (hall.imp fun _ _ hstored => readsAs_of_stores hone hstored))

/-! ## Revocation -/

/-- Two texts share no key, once the later one is missing somebody. -/
def Severed (C : Crypto) (earlier later : String) : Prop :=
  ∀ before after, verifyKvContent C earlier = .ok before → verifyKvContent C later = .ok after →
    (∃ item ∈ before.wrap.wrap,
      item.recipientHandle ∉ after.wrap.wrap.map WrapItem.recipientHandle) →
    ∀ item ∈ before.wrap.wrap, ∀ kemSecret opened,
      OpensTo C .kv before.head.sid item kemSecret opened →
      ∀ other ∈ after.wrap.wrap, ∀ otherSecret current,
        OpensTo C .kv after.head.sid other otherSecret current → opened ≠ current

theorem severed_of_revoked {earlier later : WrappedText} {before after : SecretStore}
    (hearlier : TextStores C served earlier before) (hlater : TextStores C served later after)
    (h : Revoked before after) : Severed C earlier.text later.text := by
  rintro old new hold hnew ⟨gone, hgone, hmissing⟩ item hitem kemSecret opened hopens other hother
    otherSecret current hcurrent heq
  have hstoredOld := hearlier old hold
  have hstoredNew := hlater new hnew
  have hopenedKey := (hstoredOld.seals item hitem).only hopens
  have hcurrentKey := (hstoredNew.seals other hother).only hcurrent
  refine h (fun hsubset => hmissing ?_) (hcurrentKey.symm.trans (heq.symm.trans hopenedKey))
  exact (hstoredNew.mem_holders _).mp
    (hsubset ((hstoredOld.mem_holders _).mpr (List.mem_map_of_mem hgone)))

/-- The key in force in a text: its wraps are for the members, and for nobody else; each opens for
    its member to this key, and to no other one. -/
structure InForce (C : Crypto) (written : WrappedText) (key : MasterKey) : Prop where
  recipients : ∀ {doc}, verifyKvContent C written.text = .ok doc →
    (recipientTable doc.wrap.wrap).Perm (targetTable written.members)
  opens : ∀ {doc}, verifyKvContent C written.text = .ok doc → ∀ item ∈ doc.wrap.wrap,
    ∀ member ∈ written.members, OpensForHolder C .kv doc.head.sid key member item
  only : ∀ {doc}, verifyKvContent C written.text = .ok doc → ∀ item ∈ doc.wrap.wrap,
    OpensOnlyTo C .kv doc.head.sid key item
  /-- the proof of possession was made with it -/
  possession : ∀ {doc}, verifyKvContent C written.text = .ok doc →
    verifyKvKeyPossession C doc key = .ok ()

theorem inForce_of_stores {written : WrappedText} (hone : OneStatement served)
    (h : TextStores C served written store) : InForce C written store.key := by
  constructor
  · exact fun hverify => (h _ hverify).recipients
  · intro doc hverify item hitem member hmember
    have hstore := h doc hverify
    exact (hstore.seals item hitem).opens hone (hstore.known hmember)
  · exact fun hverify item hitem => ((h _ hverify).seals item hitem).only
  · exact fun hverify => (h _ hverify).possession

/-- An operation draws the key of the text it writes. -/
def LifetimeOperation.Renews (members : List VerifiedRecipientKey) : LifetimeOperation → Prop
  | .mutate _ _ _ => False
  | .rewrap _ ctx => RemovesOrRotates members ctx

/-- Everybody keeps access: after a mutation under the same kid, after a rewrap under some kid. -/
def LifetimeOperation.KeepsAccess (members : List VerifiedRecipientKey) : LifetimeOperation → Prop
  | .mutate authority _ _ =>
    ∀ member ∈ members, member.identity ∈ targetTable authority.recipients.keys
  | .rewrap _ ctx => handlesOf members ⊆ handlesOf ctx.targetMembers

/-- A life with the key in force: a mutation keeps it with everybody's access, and so does a rewrap
    that neither removes nor rotates; any other rewrap puts a key in force that never was before. -/
inductive KeyedLife (C : Crypto) : List MasterKey → MasterKey → WrappedText →
    List LifetimeOperation → List String → Prop
  | nil {spent : List MasterKey} {key : MasterKey} {written : WrappedText} :
      InForce C written key → KeyedLife C spent key written [] []
  | cons {spent : List MasterKey} {key current : MasterKey} {written : WrappedText}
      {operation : LifetimeOperation} {operations : List LifetimeOperation} {text : String}
      {texts : List String} :
      InForce C written key →
      (¬operation.Renews written.members →
        current = key ∧ operation.KeepsAccess written.members) →
      (operation.Renews written.members → current ∉ key :: spent) →
      KeyedLife C (key :: spent) current ⟨operation.recipients, text⟩ operations texts →
      KeyedLife C spent key written (operation :: operations) (text :: texts)

/-- What an operation does to the key, by whether it draws one. -/
theorem key_of_changesKey {operation : LifetimeOperation} {key current : MasterKey}
    (h : operation.ChangesKey members key current) :
    (¬operation.Renews members → current = key ∧ operation.KeepsAccess members)
      ∧ (operation.Renews members → current ∈ operation.change.drawn) := by
  cases operation with
  | mutate authority change entropy => exact ⟨fun _ => h, False.elim⟩
  | rewrap draws ctx =>
    exact ⟨fun hkeeps => ⟨h.kept hkeeps, not_removesOrRotates hkeeps⟩, h.renewed⟩

/-- **A RUN OF OPERATIONS IS A KEYED LIFE**, as long as no key is drawn again. -/
theorem keyedLife_of_run (hC : Ideal C) {spent : List MasterKey} (hone : OneStatement served)
    (hops : ∀ operation ∈ operations, operation.WellFormed ∧ operation.recipients ⊆ served)
    (hdrawn : (operations.flatMap fun operation => operation.change.drawn).Nodup)
    (hfresh : ∀ key ∈ store.key :: spent,
      key ∉ operations.flatMap fun operation => operation.change.drawn)
    (hbefore : TextStores C served ⟨members, content⟩ store)
    (h : runTexts (LifetimeOperation.run C reader clock) content operations = .ok texts) :
    KeyedLife C spent store.key ⟨members, content⟩ operations texts := by
  induction operations generalizing content members store spent texts with
  | nil =>
    obtain rfl := Except.ok.inj h
    exact .nil (inForce_of_stores hone hbefore)
  | cons operation operations ih =>
    obtain ⟨text, htext, h⟩ := bind_eq_ok.mp h
    obtain ⟨rest, hrest, h⟩ := bind_eq_ok.mp h
    obtain rfl := Except.ok.inj h
    obtain ⟨⟨hop, hserved⟩, htail⟩ := List.forall_mem_cons.mp hops
    obtain ⟨next, hkey, _, _, _, hstores⟩ := stores_run hC hop hserved hbefore htext
    obtain ⟨hkept, hrenewed⟩ := key_of_changesKey hkey
    rw [List.flatMap_cons] at hdrawn hfresh
    obtain ⟨_, hlater, hdisjoint⟩ := List.nodup_append'.mp hdrawn
    refine .cons (inForce_of_stores hone hbefore) hkept (fun hrenews hspent => ?_)
      (ih htail hlater (fun key hmem => ?_) hstores hrest)
    · exact hfresh _ hspent (List.mem_append_left _ (hrenewed hrenews))
    · -- the next key is the one before, or was drawn just now
      intro hagain
      rcases List.mem_cons.mp hmem with rfl | hmem
      · by_cases hrenews : operation.Renews members
        · exact hdisjoint (hrenewed hrenews) hagain
        · rw [(hkept hrenews).1] at hagain
          exact hfresh _ List.mem_cons_self (List.mem_append_right _ hagain)
      · exact hfresh _ hmem (List.mem_append_right _ hagain)

/-- What is revoked in a life, and what is not. -/
structure RevocationLaws (C : Crypto) (key : MasterKey) (created : WrappedText)
    (operations : List LifetimeOperation) (texts : List String) : Prop where
  /-- a text shares no key with an earlier one of which it misses a recipient -/
  severed : (created.text :: texts).Pairwise (Severed C)
  /-- which operations keep the key in force, and which replace it -/
  keyed : KeyedLife C [] key created operations texts

/-- **WHOEVER WAS LEFT OUT NEVER HAD THE KEY IN FORCE**, in a lifetime in which no key is drawn
    twice; and the key changes with a removal and with a rotation only. -/
theorem lifetimes_revoke (hC : Ideal C)
    (hvalid : ∀ entry ∈ entries, isValidKeyName entry.key = true)
    (hops : ∀ operation ∈ operations, operation.WellFormed)
    (hone : OneStatement (servedBy recipients operations))
    (hdrawn : (entropy.masterKey
      :: (operations.map LifetimeOperation.change).flatMap Change.drawn).Nodup)
    (hcreated : setKvEntryWithRecipients C none entries recipients ctx entropy = .ok content)
    (hrun : runTexts (LifetimeOperation.run C reader clock) content operations = .ok texts) :
    RevocationLaws C entropy.masterKey ⟨recipients.verifiedMembers, content⟩ operations texts := by
  have hcontent := stores_created hC (created_servedBy recipients operations) hvalid hcreated
  have hserved : ∀ operation ∈ operations,
      operation.WellFormed ∧ operation.recipients ⊆ servedBy recipients operations :=
    fun operation hop => ⟨hops operation hop, recipients_servedBy hop⟩
  constructor
  · obtain ⟨stores, hstores, hall⟩ := stores_of_run hC hserved hcontent hrun
    have hsevered := pairwise_of_forall₂ (.cons hcontent hall)
      (fun hearlier hlater hrevoked => severed_of_revoked hearlier hlater hrevoked)
      (revoked hstores hdrawn)
    have htexts := texts_wrappedTexts LifetimeOperation.recipients hrun
    rw [← htexts]
    exact List.pairwise_map.mpr hsevered
  · rw [List.flatMap_map] at hdrawn
    obtain ⟨hfirst, hlater⟩ := List.nodup_cons.mp hdrawn
    refine keyedLife_of_run hC hone hserved hlater (fun key hkey => ?_) hcontent hrun
    rw [List.mem_singleton.mp hkey]
    exact hfirst

end Lifetimes

/-! ## Alice's document -/

/-- What alice creates a document with. -/
def aliceEntries : List KvInputEntry := [⟨"A", "value"⟩, ⟨"B", "value"⟩, ⟨"C", "value"⟩]

/-- Its keys; nothing in it has been disclosed. -/
def newMarks : List (String × Bool) := flagged mixedMarks false

theorem toyMarks_newMarks : ToyMarks newMarks := toyMarks_flagged toyMarks_mixedMarks false

/-- Nothing expires. -/
def unlimited : ExpiryClock where
  signer := fun _ => .ok ()
  recipient := fun _ => .ok ()
  decryptionKey := fun _ => .ok ()

/-- Alice writes for the team, and may. -/
def aliceAuthority : Authority := ⟨teamEvaluator, recipientsAfter, aliceKeys⟩

/-- Carol is removed; one entry is unset and another one set; carol comes back, and the key is
    rotated. -/
def aliceLife : List LifetimeOperation := [
  .rewrap sameDraws aliceChanges,
  .mutate aliceAuthority (.unset "B") (toyDraws freshSid (pad 32 [7])),
  .mutate aliceAuthority (.set [⟨"D", "value"⟩]) (toyDraws freshSid (pad 32 [8])),
  .rewrap (drawsOf [9] [10]) aliceAdds,
  .rewrap (drawsOf [11] [12]) aliceRenews]

/-- A toy text is taken for an artifact. -/
theorem parse_toyText {sid : Uuid} {wrap : KvWrap} {key : MasterKey} {marks : List (String × Bool)}
    {signer : MemberHandle} {secret : Bytes} {text : String}
    (h : ToyText sid wrap key marks signer secret text) :
    KvEncArtifact.parse plainReader text = .ok ⟨text⟩ := by
  obtain ⟨draft, signature, hmarked, hsigned, hverify⟩ := h
  obtain ⟨_, _, haccepted⟩ := accepted_of_verify hverify
  have hsize := haccepted.size
  rw [hsigned.text_eq] at hsize ⊢
  exact parse_signedWith hmarked.represents.toStands signature hsize

/-- Whatever alice does to a text that she signed for people is authorized where it is trusted. -/
theorem authorized_toy {people : List ToyPerson} {removed : Option (List RemovedRecipient)}
    {sid : Uuid} {key : MasterKey} {marks : List (String × Bool)} {text : String}
    {evaluator : TrustPolicyEvaluator} (halice : aliceOnly ∈ people) (hteam : Team people)
    (hremoved : ShortHistory removed)
    (htrusted : evaluator.evaluateKvMutation toyCrypto
      ⟨some aliceOnly.member.toLoadedPublicKey, sid, people.map (ToyPerson.wrap key)⟩
      ⟨people.map ToyPerson.member⟩ aliceKeys = .ok .trusted)
    (h : ToyText sid ⟨people.map (ToyPerson.wrap key), removed⟩ key marks alice [] text)
    (operation : KvMutationOperation) :
    authorizeKvMutation toyCrypto plainReader unlimited
        ⟨evaluator, ⟨people.map ToyPerson.member⟩, aliceKeys⟩ operation text
      = .ok ⟨text, ⟨people.map ToyPerson.member⟩, aliceKeys, operation⟩ := by
  have hparse := parse_toyText h
  obtain ⟨draft, signature, hmarked, hsigned, hverify⟩ := h
  have hchecked := ((smallWraps_team hteam key).toSmallWrap hremoved).toWrapChecked
  obtain ⟨hunwrap, hproof⟩ := unwrap_toyMarked hchecked hmarked hsigned
    (List.mem_map_of_mem (f := ToyPerson.wrap key) halice)
  have hsigner : loadedPublicKey signature.signerPub
      = .ok aliceOnly.member.toLoadedPublicKey := by
    rw [signer_toyDraft hsigned, loadedPublicKey, dif_pos (wellFormed_toyStatement alice toyKid [])]
    rfl
  have hartifact : verifiedArtifactOf (draft.document (marks.map (markedEntry key)) signature)
      = .ok ⟨some aliceOnly.member.toLoadedPublicKey, sid, people.map (ToyPerson.wrap key)⟩ := by
    refine bind_eq_ok.mpr ⟨_, hsigner, ?_⟩
    show Except.ok (VerifiedArtifact.mk _ draft.head.sid draft.wrap.data.wrap) = _
    rw [hmarked.head, hmarked.data]
    rfl
  -- the parts of the opening of the document, as the authorization goes through them
  obtain ⟨set, hset, hopen⟩ := bind_eq_ok.mp hunwrap
  obtain ⟨_, _, hopen⟩ := bind_eq_ok.mp hopen
  obtain ⟨selected, hselected, _⟩ := bind_eq_ok.mp hopen
  have hissued : AuthorizedKvMutation.fromAuthorized toyCrypto unlimited text
      (draft.document (marks.map (markedEntry key)) signature)
      ⟨people.map ToyPerson.member⟩ aliceKeys
      operation = .ok ⟨text, ⟨people.map ToyPerson.member⟩, aliceKeys, operation⟩ :=
    bind_eq_ok.mpr ⟨set, hset, bind_eq_ok.mpr ⟨selected, hselected, bind_eq_ok.mpr ⟨(), rfl,
      bind_eq_ok.mpr ⟨(), rfl, bind_eq_ok.mpr ⟨(), bind_eq_ok.mpr ⟨_, hunwrap, hproof⟩, rfl⟩⟩⟩⟩⟩
  exact bind_eq_ok.mpr ⟨_, bind_eq_ok.mpr ⟨⟨text⟩, hparse, bind_eq_ok.mpr ⟨_, hverify,
    bind_eq_ok.mpr ⟨(), rfl, rfl⟩⟩⟩, bind_eq_ok.mpr ⟨_, bind_eq_ok.mpr ⟨_, hartifact,
      bind_eq_ok.mpr ⟨_, htrusted, bind_eq_ok.mpr ⟨_, hissued, rfl⟩⟩⟩, rfl⟩⟩

/-- And so is whatever she does to the document of the team. -/
theorem authorized_team {marks : List (String × Bool)} {text : String} (h : TextAfter marks text)
    (operation : KvMutationOperation) :
    authorizeKvMutation toyCrypto plainReader unlimited aliceAuthority operation text
      = .ok ⟨text, recipientsAfter, aliceKeys, operation⟩ :=
  authorized_toy List.mem_cons_self course_change.after shortHistory_carol trusted_team h operation

/-- **THE LIFE OF A DOCUMENT**: alice creates it for herself, bob and carol, and everything she does
    after that goes through. -/
theorem run_aliceLife :
    ∃ content changed unset set added renewed,
      setKvEntryWithRecipients toyCrypto none aliceEntries (writesFor teamBefore)
        (writtenBy aliceOnly) (toyDraws toySid (pad 32 [1])) = .ok content
      ∧ runTexts (LifetimeOperation.run toyCrypto plainReader unlimited) content aliceLife
        = .ok [changed, unset, set, added, renewed]
      ∧ ToyText toySid ⟨teamBefore.map (ToyPerson.wrap (pad 32 [1])), none⟩ (pad 32 [1])
        newMarks alice [] content
      ∧ AliceCourse content changed unset set added
      ∧ ToyText freshSid ⟨teamLater.map (ToyPerson.wrap (pad 32 [12])), none⟩ (pad 32 [12])
        (flagged marksSet true) alice [] renewed := by
  have hsmall := (smallWraps_team course_change.before (pad 32 [1])).toSmallWrap shortHistory_none
  have hbuilt := buildWrapsForRecipients_toy .kv toySid (pad 32 [1]) (fun _ => [])
    course_change.before.length_le
  have hdraft := encryptedDraft_marked toySid (pad 32 [1]) toyMarks_newMarks false hbuilt id
  obtain ⟨content, hsigned, hcontent⟩ := toyText_sign (p := aliceOnly) course_change.before
    shortHistory_none toyMarks_newMarks (by decide)
    (toyMarked_markedDraft toySid hsmall.toWrapChecked (pad 32 [1]) newMarks)
  obtain ⟨changed, unset, set, added, hcourse⟩ := aliceCourse toyMarks_newMarks (by decide) hcontent
  obtain ⟨renewed, hrenew, hrenewed⟩ := renewed_toyKv toyMarks_marksSet shortHistory_carol
    hcourse.addedText
  refine ⟨content, changed, unset, set, added, renewed, bind_eq_ok.mpr ⟨_, buildSigningContext_toy
    alice [], bind_eq_ok.mpr ⟨_, hdraft, hsigned⟩⟩, ?_, hcontent, hcourse, hrenewed⟩
  have hunset : (LifetimeOperation.mutate aliceAuthority (.unset "B")
      (toyDraws freshSid (pad 32 [7]))).run toyCrypto plainReader unlimited changed = .ok unset :=
    bind_eq_ok.mpr ⟨_, authorized_team hcourse.changedText .unset, bind_eq_ok.mpr ⟨⟨unset⟩,
      bind_eq_ok.mpr ⟨(), rfl, bind_eq_ok.mpr ⟨_, hcourse.erase, parse_toyText hcourse.unsetText⟩⟩,
      rfl⟩⟩
  have hset : (LifetimeOperation.mutate aliceAuthority (.set [⟨"D", "value"⟩])
      (toyDraws freshSid (pad 32 [8]))).run toyCrypto plainReader unlimited unset = .ok set :=
    bind_eq_ok.mpr ⟨_, authorized_team hcourse.unsetText .set, bind_eq_ok.mpr ⟨⟨set⟩,
      bind_eq_ok.mpr ⟨(), rfl, bind_eq_ok.mpr ⟨_, hcourse.put, parse_toyText hcourse.setText⟩⟩,
      rfl⟩⟩
  exact runTexts_cons hcourse.change (runTexts_cons hunset (runTexts_cons hset
    (runTexts_cons hcourse.add (runTexts_cons hrenew rfl))))

theorem valid_aliceEntries : ∀ entry ∈ aliceEntries, isValidKeyName entry.key = true := by
  intro entry hentry
  rcases hentry with _ | ⟨_, _ | ⟨_, _ | ⟨_, h⟩⟩⟩
  · decide
  · decide
  · decide
  · cases h

/-- What alice asks for has valid names and one member a handle. -/
theorem wellFormed_aliceLife : ∀ operation ∈ aliceLife, operation.WellFormed := by
  intro operation hoperation
  rcases hoperation with _ | ⟨_, _ | ⟨_, _ | ⟨_, _ | ⟨_, _ | ⟨_, h⟩⟩⟩⟩⟩
  · exact RewrapOutcome.nodup_teamAfter
  · trivial
  · intro entry hentry
    rw [List.mem_singleton.mp hentry]
    decide
  · show (teamLater.map _ |>.map VerifiedRecipientKey.subjectHandle).Nodup
    decide
  · show (teamLater.map _ |>.map VerifiedRecipientKey.subjectHandle).Nodup
    decide
  · cases h

/-- And one statement for each key. -/
theorem oneStatement_aliceLife : OneStatement (servedBy (writesFor teamBefore) aliceLife) := by
  refine oneStatement_everybody ?_
  show teamBefore.map ToyPerson.member ++ (teamAfter.map ToyPerson.member
    ++ (teamAfter.map ToyPerson.member ++ (teamAfter.map ToyPerson.member
      ++ (teamLater.map ToyPerson.member ++ (teamLater.map ToyPerson.member ++ []))))) ⊆ _
  rw [List.append_nil, ← List.map_append, ← List.map_append, ← List.map_append, ← List.map_append,
    ← List.map_append]
  exact List.map_subset _ (by decide)

/-- **A DOCUMENT OF A CHANGING TEAM**: bob, who gets a new key on the way, reads what alice created
    it with at first, and at last what is left of that and what she set. -/
theorem lifetimes_read_toy :
    ∃ content texts renewed before after, runTexts (LifetimeOperation.run toyCrypto plainReader
          unlimited) content aliceLife = .ok texts
      ∧ texts.getLast? = some renewed
      ∧ verifyKvContent toyCrypto content = .ok before
      ∧ (∃ values,
        decryptKvDocumentWithContext toyCrypto before "bob" bobBefore.context = .ok values
        ∧ values.lookup "B" = some (utf8 "value") ∧ values.lookup "D" = none)
      ∧ verifyKvContent toyCrypto renewed = .ok after
      ∧ ∃ values, decryptKvDocumentWithContext toyCrypto after "bob" bobOnly.context = .ok values
        ∧ values.lookup "A" = some (utf8 "value") ∧ values.lookup "B" = none
        ∧ values.lookup "D" = some (utf8 "value") := by
  obtain ⟨content, changed, unset, set, added, renewed, hcreated, hrun, hcontent, _, hrenewed⟩ :=
    run_aliceLife
  have hreads := lifetimes_read ideal_toyCrypto valid_aliceEntries wellFormed_aliceLife
    oneStatement_aliceLife hcreated hrun
  obtain ⟨before, hbefore, _⟩ := toyText_read (List.mem_cons_self (a := aliceOnly))
    course_change.before shortHistory_none hcontent
  obtain ⟨after, hafter, _⟩ := toyText_read (List.mem_cons_self (a := aliceOnly))
    course_renewal.after shortHistory_none hrenewed
  have hbob : ∀ {people : List ToyPerson} {text doc table} (p : ToyPerson), p ∈ people →
      ReadsAs toyCrypto ⟨people.map ToyPerson.member, text⟩ table →
      verifyKvContent toyCrypto text = .ok doc → ∃ values,
        decryptKvDocumentWithContext toyCrypto doc p.handle.text p.context = .ok values
          ∧ ∀ key, values.lookup key = (table key).map utf8 := by
    intro people text doc table p hp hread hverify
    obtain ⟨values, hvalues⟩ := hread.complete hverify _ (List.mem_map_of_mem hp)
      (holdsKey_toy p.handle p.kid p.secret) (opensOwn_toy p.handle p.kid p.secret)
    exact ⟨values, hvalues, (hread.sound hverify hvalues).2⟩
  obtain ⟨hfirst, hrest⟩ := List.forall₂_cons.mp hreads
  have hlater : List.Forall₂ (ReadsAs toyCrypto) [⟨teamAfter.map ToyPerson.member, changed⟩,
      ⟨teamAfter.map ToyPerson.member, unset⟩, ⟨teamAfter.map ToyPerson.member, set⟩,
      ⟨teamLater.map ToyPerson.member, added⟩, ⟨teamLater.map ToyPerson.member, renewed⟩] _ := hrest
  obtain _ | ⟨_, _ | ⟨_, _ | ⟨_, _ | ⟨_, _ | ⟨hlast, _⟩⟩⟩⟩⟩ := hlater
  obtain ⟨values, hvalues, hlookup⟩ := hbob bobBefore (by decide) hfirst hbefore
  obtain ⟨later, hlaterValues, hlaterLookup⟩ := hbob bobOnly (by decide) hlast hafter
  refine ⟨content, _, renewed, before, after, hrun, rfl, hbefore, ⟨values, hvalues, ?_, ?_⟩, hafter,
    later, hlaterValues, ?_, ?_, ?_⟩
  · rw [hlookup]
    rfl
  · rw [hlookup]
    rfl
  · rw [hlaterLookup]
    rfl
  · rw [hlaterLookup]
    rfl
  · rw [hlaterLookup]
    rfl

/-- Carol, who is left out and comes back, is never given the key in force without her. -/
theorem lifetimes_revoke_toy :
    ∃ content texts changed, runTexts
      (LifetimeOperation.run toyCrypto plainReader unlimited) content
        aliceLife = .ok texts
      ∧ RevocationLaws toyCrypto (pad 32 [1]) ⟨teamBefore.map ToyPerson.member, content⟩
        aliceLife texts
      ∧ changed ∈ texts
      ∧ ∃ before after, verifyKvContent toyCrypto content = .ok before
        ∧ verifyKvContent toyCrypto changed = .ok after
        ∧ "carol" ∈ before.wrap.wrap.map WrapItem.recipientHandle
        ∧ "carol" ∉ after.wrap.wrap.map WrapItem.recipientHandle := by
  obtain ⟨content, changed, unset, set, added, renewed, hcreated, hrun, hcontent, hcourse, _⟩ :=
    run_aliceLife
  have hdrawn : ((toyDraws toySid (pad 32 [1])).masterKey
      :: (aliceLife.map LifetimeOperation.change).flatMap Change.drawn).Nodup := by
    show [pad 32 [1], pad 32 [2], pad 32 [5], pad 32 [9], pad 32 [10], pad 32 [11],
        pad 32 [12]].Nodup
    decide
  obtain ⟨before, hbefore, _, hwrap, _⟩ := toyText_read (List.mem_cons_self (a := aliceOnly))
    course_change.before shortHistory_none hcontent
  obtain ⟨after, hafter, _, hwrapped, _⟩ := toyText_read (List.mem_cons_self (a := aliceOnly))
    course_change.after shortHistory_carol hcourse.changedText
  refine ⟨content, _, changed, hrun, lifetimes_revoke ideal_toyCrypto valid_aliceEntries
    wellFormed_aliceLife oneStatement_aliceLife hdrawn hcreated hrun, List.mem_cons_self,
    before, after, hbefore, hafter, ?_, ?_⟩
  · rw [hwrap]
    decide
  · rw [hwrapped]
    decide

end KvLifetimes

import Kapsaro.KvMutation
import Kapsaro.RewrapOutcome

/-!
# History runs — who was removed, over a run of writes and rewraps

`feature/kv/mutate.rs` and `feature/rewrap/` change a document again and again, each time from the
text of the last one.  A set and an unset take the history of removed recipients over, a removal
merges it, and a rotation of a kv-enc document on its own starts without one; a file-enc document
keeps its history in place.

* **`Shows`** — the wrap a kv-enc text shows, whether or not it can be read again.
* **`KvOperation`**, **`runOperations`** — a run of sets, unsets and rewraps; **`KeepsHistory`** —
  no kid of a history is missing later.
* **`DropsHistory`** — the one kind of step that loses a history; **`history_step`** — what a step
  does.
* **`historyRunLaws`** — a run keeps the history exactly when no step of it drops one; runs over
  file-enc documents always do.
-/

namespace HistoryRuns

open JsonText Limits TextLines Base64Codec WireTexts WireModel DocumentTokens TokenRecords KvLines
open Envelope KvDocument SignedArtifacts KeyedList KvDraft Recipients KvSession FileDocument
open RewrapPlan KvRewrap KvMutation KvDisclosure RewrapOutcome JsonSize ToyCrypto ToyDocuments
open ToyRewraps FileAgreement

variable {C : Crypto}

/-! ## The wrap of a text -/

/-- A line that can stand in a text is its first line. -/
theorem textLines_line {line : List Char} (h : lineSafe line) (rest : List Char) :
    textLines (line ++ '\n' :: rest) = line :: textLines rest := by
  have hline := linesFrom_line [] line rest h.1
  rw [List.append_nil, endLine_reverse line h.2] at hline
  exact hline

/-- A token that can stand on a line. -/
def TokenText (token : String) : Prop :=
  token ≠ "" ∧ ∀ c ∈ token.toList, isBase64urlChar c = true

/-- The first lines of a signed text are those of its head and its wrap, whatever its keys are. -/
theorem textLines_signedText {headToken wrapToken : String} (hhead : TokenText headToken)
    (hwrap : TokenText wrapToken) (entries : List (String × String)) (sigToken : String) :
    ∃ rest, textLines (signedText (buildUnsignedKvDocument headToken wrapToken entries)
        sigToken).toList
      = lineText (.header .v1) :: lineText (.head headToken) :: lineText (.wrap wrapToken)
        :: rest := by
  have hcontrol : ∀ (tag token : String), '\n' ∉ tag.toList → TokenText token →
      lineSafe (tag.toList ++ token.toList) := fun tag token htag htoken =>
    lineSafe_append htag (fun hnil => htoken.1 (String.toList_eq_nil_iff.mp hnil)) htoken.2
  have hversion : lineSafe (lineText (.header .v1)) := by constructor <;> decide
  have hheadLine : lineSafe (lineText (.head headToken)) :=
    hcontrol ":HEAD " headToken (by decide) hhead
  have hwrapLine : lineSafe (lineText (.wrap wrapToken)) :=
    hcontrol ":WRAP " wrapToken (by decide) hwrap
  refine ⟨textLines (joinLines (((entries.map fun e : String × String => KvEncLine.kv e.1 e.2)
    ++ [KvEncLine.sig sigToken]).map lineText)), ?_⟩
  rw [signedText_eq, String.toList_ofList]
  show textLines (joinLines (lineText (.header .v1) :: lineText (.head headToken)
    :: lineText (.wrap wrapToken) :: _)) = _
  rw [joinLines_cons, textLines_line hversion, joinLines_cons, textLines_line hheadLine,
    joinLines_cons, textLines_line hwrapLine]
  rfl

/-- Whoever reads a text that opens with these lines finds the token of its wrap line. -/
theorem wrapToken_of_lines {content headToken wrapToken sigToken : String}
    {rest : List (List Char)} {doc : KvEncDocument} {docHead : String}
    (hhead : headToken ≠ "") (hwrap : wrapToken ≠ "")
    (hlines : textLines content.toList
      = lineText (.header .v1) :: lineText (.head headToken) :: lineText (.wrap wrapToken) :: rest)
    (haccepted : Accepted content doc docHead sigToken) : doc.wrapToken = wrapToken := by
  have hparse := haccepted.lines
  rw [hlines] at hparse
  obtain ⟨l₁, h₁, hparse⟩ := bind_eq_ok.mp hparse
  obtain ⟨ls₁, hparse, hls⟩ := bind_eq_ok.mp hparse
  obtain ⟨l₂, h₂, hparse⟩ := bind_eq_ok.mp hparse
  obtain ⟨ls₂, hparse, hls₁⟩ := bind_eq_ok.mp hparse
  obtain ⟨l₃, h₃, hparse⟩ := bind_eq_ok.mp hparse
  obtain ⟨ls₃, _, hls₂⟩ := bind_eq_ok.mp hparse
  obtain rfl := Except.ok.inj ((readable_header .v1).symm.trans h₁)
  obtain rfl := Except.ok.inj ((readable_head hhead).symm.trans h₂)
  obtain rfl := Except.ok.inj ((readable_wrap hwrap).symm.trans h₃)
  obtain rfl := Except.ok.inj hls₂
  obtain rfl := Except.ok.inj hls₁
  have hshape := haccepted.shape
  rw [← Except.ok.inj hls] at hshape
  have hfirst : KvEncLine.wrap wrapToken = .wrap doc.wrapToken :=
    (List.cons.inj (List.cons.inj (List.cons.inj hshape).2).2).1
  exact (KvEncLine.wrap.inj hfirst).symm

/-- The kept WRAP token of a draft stands for its data. -/
def RawWrap (draft : KvDocumentDraft) : Prop :=
  ∀ token ∈ draft.wrap.token, parseKvWrapToken token = .ok draft.wrap.data

/-- A draft with such a token stands for its wrap, apart from its entries. -/
theorem stands_of_rawWrap {draft : KvDocumentDraft} (h : RawWrap draft) :
    Stands { draft with entries := [] } [] :=
  ⟨h, .nil⟩

theorem tokenText_wrapToken {draft : KvDocumentDraft} (h : RawWrap draft) :
    TokenText draft.wrapToken := by
  rw [KvDocumentDraft.wrapToken]
  cases htoken : draft.wrap.token with
  | none => exact ⟨tokenText_ne_empty _, tokenText_chars _⟩
  | some token =>
    obtain ⟨wrap, hwrap, _⟩ := bind_eq_ok.mp (h token htoken)
    exact token_of_parse hwrap

/-- The wrap a text shows: that of the document it is read as, or of the draft it was written
    from. -/
inductive Shows (C : Crypto) : String → KvWrap → Prop
  | read {content : String} {doc : KvEncDocument} : verifyKvContent C content = .ok doc →
      Shows C content doc.wrap
  | written {draft : KvDocumentDraft} (signature : ArtifactSignature) : RawWrap draft →
      Shows C (draft.signedWith signature) draft.wrap.data

/-- Whoever reads a written text finds the wrap of its draft. -/
theorem wrap_of_written {draft : KvDocumentDraft} (h : RawWrap draft)
    (signature : ArtifactSignature) {doc : KvEncDocument}
    (hverify : verifyKvContent C (draft.signedWith signature) = .ok doc) :
    doc.wrap = draft.wrap.data := by
  obtain ⟨docHead, sigToken, haccepted⟩ := accepted_of_verify hverify
  have hwrap := tokenText_wrapToken h
  obtain ⟨rest, hlines⟩ := textLines_signedText ⟨tokenText_ne_empty draft.head.toJson,
    tokenText_chars draft.head.toJson⟩ hwrap draft.tokens (tokenText signature.toJson)
  have htoken := wrapToken_of_lines (tokenText_ne_empty _) hwrap.1 hlines haccepted
  have hparse := haccepted.wrap
  rw [htoken] at hparse
  exact ((stands_of_rawWrap h).parseWrap hparse).1

/-- **A TEXT SHOWS ONE WRAP.** -/
theorem Shows.unique {content : String} {a b : KvWrap} (ha : Shows C content a)
    (hb : Shows C content b) : a = b := by
  cases ha with
  | read hread =>
    cases hb with
    | read hother => rw [Except.ok.inj (hread.symm.trans hother)]
    | written signature hraw => exact wrap_of_written hraw signature hread
  | @written draft signature hraw =>
    generalize htext : draft.signedWith signature = content at hb
    cases hb with
    | read hread =>
      rw [← htext] at hread
      exact (wrap_of_written hraw signature hread).symm
    | @written other signature' hraw' =>
      have hhead : ∀ d : KvDocumentDraft, TokenText (tokenText d.head.toJson) :=
        fun d => ⟨tokenText_ne_empty _, tokenText_chars _⟩
      obtain ⟨rest, hlines⟩ := textLines_signedText (hhead draft) (tokenText_wrapToken hraw)
        draft.tokens (tokenText signature.toJson)
      obtain ⟨rest', hlines'⟩ := textLines_signedText (hhead other) (tokenText_wrapToken hraw')
        other.tokens (tokenText signature'.toJson)
      have hsame : textLines (draft.signedWith signature).toList
          = textLines (other.signedWith signature').toList := by rw [htext]
      have hthree := hlines.symm.trans (hsame.trans hlines')
      have hline := (List.cons.inj (List.cons.inj (List.cons.inj hthree).2).2).1
      have htoken : draft.wrapToken = other.wrapToken :=
        String.toList_inj.mp (List.append_cancel_left hline)
      exact @Stands.wrap_eq { draft with entries := [] } { other with entries := [] } [] []
        (stands_of_rawWrap hraw) (stands_of_rawWrap hraw') htoken

/-- The wrap of a spelled document is shown. -/
theorem shows_of_spells {text : String} {doc : KvEncDocument} (h : Spells text doc) :
    Shows C text doc.wrap := by
  cases h with
  | intro hstands => exact .written _ hstands.raw

/-! ## Runs -/

section Runs

variable {A : Type}

/-- The texts of a run: each step works on the text before it. -/
def runTexts (step : A → String → Except Error String) (content : String) :
    List A → Except Error (List String)
  | [] => .ok []
  | a :: steps => do
    let text ← step a content
    let texts ← runTexts step text steps
    pure (text :: texts)

/-- Whatever a text shows as removed, another shows as well. -/
def KeepsRemoved (shows : String → List String → Prop) (earlier later : String) : Prop :=
  ∃ before after, shows earlier before ∧ shows later after ∧ ∀ kid ∈ before, kid ∈ after

/-- **NO KID IS FORGOTTEN** along some texts: what one shows as removed, every later one does. -/
def KeepsHistory (shows : String → List String → Prop) (texts : List String) : Prop :=
  texts.Pairwise (KeepsRemoved shows)

/-- Where a text shows one history only, it is enough to look at neighbours. -/
theorem keepsHistory_iff_chain {shows : String → List String → Prop}
    (hunique : ∀ {text a b}, shows text a → shows text b → a = b) {texts : List String} :
    KeepsHistory shows texts ↔ texts.IsChain (KeepsRemoved shows) := by
  have htrans : IsTrans String (KeepsRemoved shows) := by
    constructor
    rintro first second third ⟨a, b, ha, hb, hab⟩ ⟨b', c, hb', hc, hbc⟩
    rw [hunique hb' hb] at hbc
    exact ⟨a, c, ha, hc, fun kid hkid => hbc kid (hab kid hkid)⟩
  exact List.isChain_iff_pairwise.symm

/-- What holds of every step of a run. -/
def EachStep (P : A → String → String → Prop) : String → List String → List A → Prop
  | content, text :: texts, a :: steps => P a content text ∧ EachStep P text texts steps
  | _, _, _ => True

/-- A run chains its texts by what each of its steps does. -/
theorem chain_iff_eachStep {step : A → String → Except Error String} {steps : List A}
    {content : String} {texts : List String} (hrun : runTexts step content steps = .ok texts)
    {R : String → String → Prop} {P : A → String → String → Prop}
    (hstep : ∀ a ∈ steps, ∀ before after, step a before = .ok after →
      (R before after ↔ P a before after)) :
    (content :: texts).IsChain R ↔ EachStep P content texts steps := by
  induction steps generalizing content texts with
  | nil =>
    obtain rfl := Except.ok.inj hrun
    exact ⟨fun _ => trivial, fun _ => .singleton content⟩
  | cons a steps ih =>
    obtain ⟨text, hfirst, hrun⟩ := bind_eq_ok.mp hrun
    obtain ⟨rest, hrest, hrun⟩ := bind_eq_ok.mp hrun
    obtain rfl := Except.ok.inj hrun
    obtain ⟨hhead, htail⟩ := List.forall_mem_cons.mp hstep
    rw [List.isChain_cons_cons, hhead content text hfirst, ih hrest htail]
    rfl

end Runs

/-! ## Operations -/

/-- A change of a kv-enc document. -/
inductive KvOperation where
  | set (entries : List KvInputEntry) (recipients : KvRecipientSnapshot) (ctx : KvWriteContext)
    (entropy : Entropy)
  | unset (key : String) (recipients : KvRecipientSnapshot) (ctx : KvWriteContext)
    (entropy : Entropy)
  | rewrap (draws : RewrapDraws) (ctx : RewrapContext)

namespace KvOperation

/-- Carry out a change on a text. -/
def run (C : Crypto) : KvOperation → String → Except Error String
  | .set entries recipients ctx entropy, content =>
    setKvEntryWithRecipients C (some content) entries recipients ctx entropy
  | .unset key recipients ctx entropy, content =>
    unsetKvEntryWithRecipients C content key recipients ctx entropy
  | .rewrap draws ctx, content => rewrapKvDocument C draws content ctx

/-- A change clears the history on request. -/
def Clears : KvOperation → Prop
  | .rewrap _ ctx => ctx.options.clearDisclosureHistory = true
  | _ => False

/-- A change drops the history of a document that has one: it rotates the key and removes nobody. -/
def DropsHistory (doc : KvEncDocument) : KvOperation → Prop
  | .rewrap _ ctx => (planOf doc ctx).rotateKey = true ∧ (planOf doc ctx).removeRecipients = []
    ∧ historyKids doc.wrap.removedRecipients ≠ []
  | _ => False

end KvOperation

/-- The removed kids a kv-enc text shows. -/
def ShowsRemoved (C : Crypto) (text : String) (kids : List String) : Prop :=
  ∃ wrap, Shows C text wrap ∧ historyKids wrap.removedRecipients = kids

theorem ShowsRemoved.unique {text : String} {a b : List String} (ha : ShowsRemoved C text a)
    (hb : ShowsRemoved C text b) : a = b := by
  obtain ⟨wrap, hwrap, rfl⟩ := ha
  obtain ⟨other, hother, rfl⟩ := hb
  rw [hwrap.unique hother]

/-- A step of a run does not drop the history of the text it works on. -/
def KeepsStep (C : Crypto) (operation : KvOperation) (content _text : String) : Prop :=
  ∀ doc, verifyKvContent C content = .ok doc → ¬operation.DropsHistory doc

/-! ## A step -/

/-- What a rewrite shows: the history of its document. -/
theorem history_rewritten {content text : String} {recipients : KvRecipientSnapshot}
    {ctx : KvWriteContext} {entropy : Entropy}
    {mutateUnsigned : KvDocumentDraft → VerifiedKvRewriteSession → MasterKey →
      Except Error KvDocumentDraft}
    (h : rewriteExistingKvContent C content recipients ctx entropy mutateUnsigned = .ok text) :
    ∃ doc, verifyKvContent C content = .ok doc
      ∧ ShowsRemoved C text (historyKids doc.wrap.removedRecipients) := by
  obtain ⟨doc, _, _, mutated, wrap, signature, hrun⟩ := rewriteExistingKvContent_ok h
  obtain ⟨_, hsigned⟩ := hrun.signed
  refine ⟨doc, hrun.verified, wrap, ?_, congrArg historyKids hrun.history⟩
  rw [hsigned.text_eq]
  exact @Shows.written C (mutated.setWrap wrap) signature fun _ htoken => by cases htoken

/-- **WHAT A STEP DOES TO THE HISTORY**: it keeps every kid, unless it is of the kind that drops
    them; then none is left. -/
theorem history_step (hC : Lawful C) {operation : KvOperation} {content text : String}
    (hclears : ¬operation.Clears) (h : operation.run C content = .ok text) :
    ∃ doc kids, verifyKvContent C content = .ok doc ∧ ShowsRemoved C text kids
      ∧ (¬operation.DropsHistory doc →
        ∀ kid ∈ historyKids doc.wrap.removedRecipients, kid ∈ kids)
      ∧ (operation.DropsHistory doc →
        historyKids doc.wrap.removedRecipients ≠ [] ∧ kids = []) := by
  cases operation with
  | set entries recipients ctx entropy =>
    obtain ⟨doc, hverify, hshows⟩ := history_rewritten h
    exact ⟨doc, _, hverify, hshows, fun _ _ hkid => hkid, fun hdrops => hdrops.elim⟩
  | unset key recipients ctx entropy =>
    obtain ⟨doc, hverify, hshows⟩ := history_rewritten h
    exact ⟨doc, _, hverify, hshows, fun _ _ hkid => hkid, fun hdrops => hdrops.elim⟩
  | rewrap draws ctx =>
    have hrewrap : rewrapKvDocument C draws content ctx = .ok text := h
    obtain ⟨doc, _, _, hverify, _⟩ := rewrapDocument_ok hrewrap
    obtain ⟨renewed, written, hrenewal, hspells, hwritten⟩ := rewrap_spells hC hverify hrewrap
    have hhistory : written.wrap.removedRecipients = renewed.wrap.removedRecipients := by
      have hoff : ctx.options.clearDisclosureHistory = false := Bool.eq_false_iff.mpr hclears
      rw [hwritten.history, hoff, if_neg Bool.false_ne_true]
    refine ⟨doc, _, hverify, ⟨written.wrap, shows_of_spells hspells, rfl⟩, ?_, ?_⟩
    -- A removal merges into the history; only a rotation on its own may drop it.
    · intro hkeeps kid hkid
      rw [hhistory]
      cases hrenewal with
      | kept _ _ => exact hkid
      | removed _ hfrom _ =>
        rw [history_reencryptedFrom hfrom]
        exact (kids_mergeRemovedHistory _ _ kid).mpr (Or.inr hkid)
      | rotated hnone hrotates _ _ _ =>
        exact absurd ⟨hrotates, hnone, List.ne_nil_of_mem hkid⟩ hkeeps
    · rintro ⟨hrotates, hnone, hsome⟩
      refine ⟨hsome, ?_⟩
      rw [hhistory]
      cases hrenewal with
      | kept _ hstays =>
        rw [hrotates] at hstays
        cases hstays
      | removed hremoved _ _ => exact absurd hnone hremoved
      | rotated _ _ hpreserves hfrom _ =>
        rw [history_reencryptedFrom hfrom, hpreserves]
        rfl

/-- **A STEP KEEPS THE HISTORY EXACTLY WHEN IT IS NOT OF THAT KIND.** -/
theorem keepsRemoved_iff (hC : Lawful C) {operation : KvOperation} {content text : String}
    (hclears : ¬operation.Clears) (h : operation.run C content = .ok text) :
    KeepsRemoved (ShowsRemoved C) content text ↔ KeepsStep C operation content text := by
  obtain ⟨doc, kids, hverify, hshows, hkept, hdropped⟩ := history_step hC hclears h
  have hbefore : ShowsRemoved C content (historyKids doc.wrap.removedRecipients) :=
    ⟨doc.wrap, .read hverify, rfl⟩
  constructor
  · rintro ⟨before, after, hearlier, hlater, hsub⟩ other hother hdrops
    obtain rfl := Except.ok.inj (hverify.symm.trans hother)
    obtain ⟨hsome, hnone⟩ := hdropped hdrops
    obtain ⟨kid, hkid⟩ := List.exists_mem_of_ne_nil _ hsome
    rw [hearlier.unique hbefore, hlater.unique hshows, hnone] at hsub
    exact List.not_mem_nil (hsub kid hkid)
  · intro hkeeps
    exact ⟨_, kids, hbefore, hshows, hkept (hkeeps doc hverify)⟩

/-! ## Files -/

theorem parse_of_verifyFile {content : String} {doc : FileEncDocument}
    (h : verifyFileContent C content = .ok doc) :
    ∃ sourceName, parseFileEncStr content sourceName = .ok doc := by
  obtain ⟨parsed, hparse, h⟩ := bind_eq_ok.mp h
  obtain ⟨_, _, h⟩ := bind_eq_ok.mp h
  obtain ⟨_, _, h⟩ := bind_eq_ok.mp h
  obtain ⟨_, _, h⟩ := bind_eq_ok.mp h
  obtain rfl := Except.ok.inj h
  exact ⟨_, hparse⟩

/-- The removed kids a file-enc text shows: those of the document it is read as, or was written
    from. -/
def ShowsFileRemoved (C : Crypto) (text : String) (kids : List String) : Prop :=
  ∃ doc : FileEncDocument, (verifyFileContent C text = .ok doc ∨ SpellsFile text doc)
    ∧ historyKids doc.protect.removedRecipients = kids

theorem ShowsFileRemoved.unique {text : String} {a b : List String}
    (ha : ShowsFileRemoved C text a) (hb : ShowsFileRemoved C text b) : a = b := by
  obtain ⟨doc, hdoc, rfl⟩ := ha
  obtain ⟨other, hother, rfl⟩ := hb
  have hsame : doc = other := by
    rcases hdoc with hread | hspells <;> rcases hother with hread' | hspells'
    · exact Except.ok.inj (hread.symm.trans hread')
    · obtain ⟨_, hparse⟩ := parse_of_verifyFile hread
      exact hspells'.read hparse
    · obtain ⟨_, hparse⟩ := parse_of_verifyFile hread'
      exact (hspells.read hparse).symm
    · exact hspells.unique hspells'
  rw [hsame]

/-- A rewrap of a file, with its draws. -/
structure FileOperation where
  draws : RewrapDraws
  ctx : RewrapContext

def FileOperation.run (C : Crypto) (operation : FileOperation) (content : String) :
    Except Error String :=
  FileRewrap.rewrapFileDocument C operation.draws content operation.ctx

/-- **A REWRAP OF A FILE KEEPS EVERY KID**, whatever it does, unless it clears. -/
theorem keepsRemoved_file {operation : FileOperation} {content text : String}
    (hclears : ¬operation.ctx.options.clearDisclosureHistory = true)
    (h : operation.run C content = .ok text) :
    KeepsRemoved (ShowsFileRemoved C) content text := by
  obtain ⟨run⟩ := FileRewrap.file_run h
  refine ⟨_, _, ⟨run.input, Or.inl run.verified, rfl⟩,
    ⟨run.output, Or.inr (spells_fileRun run), rfl⟩, fun kid hkid => ?_⟩
  have hoff : operation.ctx.options.clearDisclosureHistory = false := Bool.eq_false_iff.mpr hclears
  rw [run.protect_eq, hoff, if_neg Bool.false_ne_true]
  -- the kid is carried from state to state, next to the invariant of the executor
  let Kept : FileRewrap.FileRewrapExecutor → Prop := fun e =>
    (∃ drawn, FileRewrap.FileTracks C operation.ctx run.input drawn e)
      ∧ kid ∈ historyKids e.protect.removedRecipients
  have hstart : Kept (FileRewrap.FileRewrapExecutor.new run.input operation.ctx) :=
    ⟨⟨_, FileRewrap.tracks_initial run.input operation.ctx⟩, hkid⟩
  have hremoved : Kept run.removed := run.steps.remove.keeps hstart fun hkept hstep => by
    obtain ⟨⟨drawn, htracks⟩, hin⟩ := hkept
    obtain ⟨htracks', hhistory, _⟩ := FileRewrap.tracks_remove htracks hstep
    exact ⟨⟨_, htracks'⟩, hhistory ▸ FileRewrap.kids_recordFileRemovals _ _ _ _ hin⟩
  have hrefreshed : Kept run.refreshed := run.steps.stale.keeps hremoved fun hkept hstep => by
    obtain ⟨⟨drawn, htracks⟩, hin⟩ := hkept
    obtain ⟨htracks', hhistory, _⟩ := FileRewrap.tracks_rewrite htracks hstep
    exact ⟨⟨_, htracks'⟩, hhistory ▸ hin⟩
  have hadded : Kept run.added := run.steps.add.keeps hrefreshed fun hkept hstep => by
    obtain ⟨⟨drawn, htracks⟩, hin⟩ := hkept
    obtain ⟨htracks', hhistory, _⟩ := FileRewrap.tracks_add htracks hstep
    exact ⟨⟨_, htracks'⟩, hhistory ▸ hin⟩
  have hrotated : Kept run.rotated := run.steps.rotate.keeps hadded fun hkept hstep => by
    obtain ⟨⟨drawn, htracks⟩, hin⟩ := hkept
    obtain ⟨htracks', hhistory, _⟩ := FileRewrap.tracks_rotate htracks hstep
    exact ⟨⟨_, htracks'⟩, hhistory ▸ hin⟩
  exact hrotated.2

/-! ## The laws of runs -/

/-- What runs without a clearing do to the history of removed recipients. -/
structure HistoryRunLaws (C : Crypto) : Prop where
  /-- sets, unsets and rewraps of a kv-enc document, in any order: no kid is forgotten exactly when
      no step rotates the key of a document with a history without removing anybody -/
  kv : ∀ {content texts} {operations : List KvOperation},
    (∃ doc, verifyKvContent C content = .ok doc) →
    (∀ operation ∈ operations, ¬operation.Clears) →
    runTexts (KvOperation.run C) content operations = .ok texts →
    (KeepsHistory (ShowsRemoved C) (content :: texts)
      ↔ EachStep (KeepsStep C) content texts operations)
  /-- rewraps of a file-enc document: none ever is -/
  file : ∀ {content texts} {operations : List FileOperation},
    (∃ doc, verifyFileContent C content = .ok doc) →
    (∀ operation ∈ operations, ¬operation.ctx.options.clearDisclosureHistory = true) →
    runTexts (FileOperation.run C) content operations = .ok texts →
    KeepsHistory (ShowsFileRemoved C) (content :: texts)

/-- What holds of each step holds of all. -/
theorem eachStep_of_forall {A : Type} {P : A → String → String → Prop} (content : String)
    (texts : List String) {steps : List A} (h : ∀ a ∈ steps, ∀ b c, P a b c) :
    EachStep P content texts steps := by
  induction texts generalizing content steps with
  | nil =>
    cases steps with
    | nil => trivial
    | cons a steps => trivial
  | cons text texts ih =>
    cases steps with
    | nil => trivial
    | cons a steps =>
      exact ⟨h a List.mem_cons_self content text, ih text fun b hb => h b
        (List.mem_cons_of_mem a hb)⟩

/-- **A RUN KEEPS THE HISTORY UNLESS IT ROTATES A KV-ENC DOCUMENT ON ITS OWN.** -/
theorem historyRunLaws (hC : Lawful C) : HistoryRunLaws C where
  kv := by
    intro content texts operations _ hclears hrun
    have hchain := @keepsHistory_iff_chain (ShowsRemoved C) (fun ha hb => ha.unique hb)
      (content :: texts)
    have hsteps := @chain_iff_eachStep KvOperation (KvOperation.run C) operations content texts hrun
      (KeepsRemoved (ShowsRemoved C)) (KeepsStep C)
      fun operation hoperation _ _ hstep => keepsRemoved_iff hC (hclears operation hoperation) hstep
    exact hchain.trans hsteps
  file := by
    intro content texts operations _ hclears hrun
    have hchain := @keepsHistory_iff_chain (ShowsFileRemoved C) (fun ha hb => ha.unique hb)
      (content :: texts)
    have hsteps := @chain_iff_eachStep FileOperation (FileOperation.run C) operations content texts
      hrun (KeepsRemoved (ShowsFileRemoved C)) (fun _ _ _ => True)
      fun operation hoperation _ _ hstep =>
        iff_of_true (keepsRemoved_file (hclears operation hoperation) hstep) trivial
    exact hchain.mpr (hsteps.mpr (eachStep_of_forall _ _ fun _ _ _ _ => trivial))

/-! ## Runs of a rotation -/

/-- A history with one removed recipient. -/
def bobRemoved : List RemovedRecipient := [⟨bob.text, bobKid.text, toyTime.text⟩]

/-- Alice rotates a document with some history, and is left with none. -/
theorem rotated_withHistory {removed : Option (List RemovedRecipient)}
    (hremoved : ShortHistory removed) :
    ∃ content text input output, verifyKvContent toyCrypto content = .ok input
      ∧ input.wrap.removedRecipients = removed
      ∧ rewrapKvDocument toyCrypto sameDraws content aliceRotates = .ok text
      ∧ verifyKvContent toyCrypto text = .ok output
      ∧ output.wrap.removedRecipients = none := by
  obtain ⟨content, hcontent⟩ := toyText_people toySid course_rotation.before hremoved
    (pad 32 [1]) toyMarks_toyMarks List.mem_cons_self
  obtain ⟨text, hrewrap, hrotated⟩ := rotated_toyKv toyMarks_toyMarks hremoved hcontent
  obtain ⟨input, hverify, _, hwrap, _⟩ :=
    toyText_read List.mem_cons_self course_rotation.before hremoved hcontent
  obtain ⟨output, hread, _, hwrapped, _⟩ :=
    toyText_read List.mem_cons_self course_rotation.after shortHistory_none hrotated
  exact ⟨content, text, input, output, hverify, congrArg KvWrap.removedRecipients hwrap,
    hrewrap, hread, congrArg KvWrap.removedRecipients hwrapped⟩

theorem runTexts_cons {A : Type} {step : A → String → Except Error String} {content text : String}
    {texts : List String} {a : A} {steps : List A} (h : step a content = .ok text)
    (hrest : runTexts step text steps = .ok texts) :
    runTexts step content (a :: steps) = .ok (text :: texts) :=
  bind_eq_ok.mpr ⟨text, h, bind_eq_ok.mpr ⟨texts, hrest, rfl⟩⟩

/-- Carol is removed from a document with three entries; then an entry is unset and another one set,
    and carol comes back. -/
def aliceKvRun : List KvOperation := [
  .rewrap sameDraws aliceChanges,
  .unset "B" (writesFor teamAfter) (writtenBy aliceOnly) (toyDraws freshSid (pad 32 [7])),
  .set [⟨"D", "value"⟩] (writesFor teamAfter) (writtenBy aliceOnly)
    (toyDraws freshSid (pad 32 [8])),
  .rewrap (drawsOf [9] [10]) aliceAdds]

/-- Carol is removed from a file, and comes back; then the key is rotated. -/
def aliceFileRun : List FileOperation := [
  ⟨sameDraws, aliceChanges⟩, ⟨drawsOf [9] [10], aliceAdds⟩, ⟨drawsOf [11] [12], aliceRenews⟩]

/-- The flags after the removal and the unset. -/
def marksUnset : List (String × Bool) := (flagged mixedMarks true).filter fun mark => mark.1 ≠ "B"

/-- And after the set. -/
def marksSet : List (String × Bool) := marksUnset ++ [("D", false)]

theorem toyMarks_marksSet : ToyMarks marksSet := ⟨by decide, by decide, by decide, by decide⟩

/-- A toy document of alice, bob and dave, with carol in its history. -/
def TextAfter (marks : List (String × Bool)) (text : String) : Prop :=
  ToyText freshSid ⟨teamAfter.map (ToyPerson.wrap (pad 32 [2])), some carolRemoved⟩
    (pad 32 [2]) marks alice [] text

/-- The texts of the run on a document. -/
structure AliceCourse (content changed unset set added : String) : Prop where
  change : rewrapKvDocument toyCrypto sameDraws content aliceChanges = .ok changed
  changedText : TextAfter (flagged mixedMarks true) changed
  erase : unsetKvEntryWithRecipients toyCrypto changed "B" (writesFor teamAfter)
    (writtenBy aliceOnly) (toyDraws freshSid (pad 32 [7])) = .ok unset
  unsetText : TextAfter marksUnset unset
  put : setKvEntryWithRecipients toyCrypto (some unset) [⟨"D", "value"⟩] (writesFor teamAfter)
    (writtenBy aliceOnly) (toyDraws freshSid (pad 32 [8])) = .ok set
  setText : TextAfter marksSet set
  add : rewrapKvDocument toyCrypto (drawsOf [9] [10]) set aliceAdds = .ok added
  addedText : ToyText freshSid ⟨teamLater.map (ToyPerson.wrap (pad 32 [2])), some carolRemoved⟩
    (pad 32 [2]) marksSet alice [] added

/-- The run goes through on a document of the team with these three entries. -/
theorem aliceCourse {marks : List (String × Bool)} (hmarks : ToyMarks marks)
    (hnames : flagged marks true = flagged mixedMarks true) {signer : MemberHandle} {secret : Bytes}
    {content : String} (h : ToyText toySid ⟨teamBefore.map (ToyPerson.wrap (pad 32 [1])), none⟩
      (pad 32 [1]) marks signer secret content) :
    ∃ changed unset set added, AliceCourse content changed unset set added := by
  have hflagged := toyMarks_flagged toyMarks_mixedMarks true
  obtain ⟨changed, hchange, hchanged⟩ := changed_toyKv hmarks h
  rw [hnames] at hchanged
  obtain ⟨unset, hunset, hunsetText⟩ := unset_toyKv (p := aliceOnly) "B" rfl List.mem_cons_self
    course_change.after shortHistory_carol hflagged (by decide) hchanged freshSid (pad 32 [7])
  obtain ⟨set, hset, hsetText⟩ := set_toyKv (p := aliceOnly) "D" rfl List.mem_cons_self
    course_change.after shortHistory_carol toyMarks_marksSet hunsetText freshSid (pad 32 [8])
  obtain ⟨added, hadd, hadded⟩ := added_toyKv toyMarks_marksSet shortHistory_carol hsetText
  exact ⟨changed, unset, set, added, hchange, hchanged, hunset, hunsetText, hset, hsetText, hadd,
    hadded⟩

/-- The run on a document goes through, and its end shows carol. -/
theorem run_aliceKvRun :
    ∃ content input texts last, verifyKvContent toyCrypto content = .ok input
      ∧ runTexts (KvOperation.run toyCrypto) content aliceKvRun = .ok texts
      ∧ texts.getLast? = some last ∧ ShowsRemoved toyCrypto last [carolOnly.kid.text] := by
  obtain ⟨content, hcontent⟩ := toyText_people toySid course_change.before shortHistory_none
    (pad 32 [1]) toyMarks_mixedMarks (List.mem_cons_self (a := aliceOnly))
  obtain ⟨input, hverify, _⟩ :=
    toyText_read (List.mem_cons_self (a := aliceOnly)) course_change.before
      shortHistory_none hcontent
  obtain ⟨changed, unset, set, added, hcourse⟩ :=
    aliceCourse toyMarks_mixedMarks rfl hcontent
  obtain ⟨last, hlast, _, hwrap, _⟩ := toyText_read (List.mem_cons_self (a := aliceOnly))
    course_addition.after shortHistory_carol hcourse.addedText
  refine ⟨content, input, [changed, unset, set, added], added, hverify,
    runTexts_cons hcourse.change (runTexts_cons hcourse.erase (runTexts_cons hcourse.put
      (runTexts_cons hcourse.add rfl))), rfl, last.wrap, .read hlast, ?_⟩
  rw [hwrap]
  rfl

/-- The run on a file goes through, whatever the file holds. -/
theorem run_toyFile {content : Bytes} {signer : MemberHandle} {secret : Bytes}
    {doc : FileEncDocument}
    (hsize : computeEncodedLen (content.length + 16) ≤ maxBase64CiphertextLength)
    (h : ToyFile toySid toySid ⟨teamBefore.map (ToyPerson.wrap (pad 32 [1])), none⟩ (pad 32 [1])
      content signer secret doc) :
    ∃ changed added renewed, runTexts (FileOperation.run toyCrypto) (writeFileEnc doc) aliceFileRun
        = .ok [writeFileEnc changed, writeFileEnc added, writeFileEnc renewed]
      ∧ ToyFile toySid toySid ⟨teamAfter.map (ToyPerson.wrap (pad 32 [2])), some carolRemoved⟩
        (pad 32 [2]) content alice [] changed
      ∧ ToyFile toySid toySid ⟨teamLater.map (ToyPerson.wrap (pad 32 [2])), some carolRemoved⟩
        (pad 32 [2]) content alice [] added
      ∧ ToyFile toySid toySid ⟨teamLater.map (ToyPerson.wrap (pad 32 [12])), some carolRemoved⟩
        (pad 32 [12]) content alice [] renewed := by
  obtain ⟨changed, hchange, hchanged⟩ := changed_toyFile hsize h
  obtain ⟨added, hadd, hadded⟩ := added_toyFile shortHistory_carol hsize hchanged
  obtain ⟨renewed, hrenew, hrenewed⟩ := renewed_toyFile shortHistory_carol hsize hadded
  exact ⟨changed, added, renewed, runTexts_cons hchange (runTexts_cons hadd
    (runTexts_cons hrenew rfl)), hchanged, hadded, hrenewed⟩

/-- And its end shows carol too. -/
theorem run_aliceFileRun :
    ∃ content input texts last, verifyFileContent toyCrypto content = .ok input
      ∧ runTexts (FileOperation.run toyCrypto) content aliceFileRun = .ok texts
      ∧ texts.getLast? = some last ∧ ShowsFileRemoved toyCrypto last [carolOnly.kid.text] := by
  obtain ⟨doc, hdoc⟩ := verify_toyFile toySid toySid
    (smallWraps_team course_change.before (pad 32 [1]))
    shortHistory_none (pad 32 [1]) [] alice []
  obtain ⟨changed, added, renewed, hrun, _, _, hrenewed⟩ := run_toyFile (by decide) hdoc
  refine ⟨_, doc, _, _, hdoc.verified, hrun, rfl, renewed, Or.inl hrenewed.verified, ?_⟩
  rw [hrenewed.protect_eq]
  rfl

/-- Alice's runs forget nobody. -/
theorem historyRunLaws_toy :
    (∃ content texts, runTexts (KvOperation.run toyCrypto) content aliceKvRun = .ok texts
      ∧ KeepsHistory (ShowsRemoved toyCrypto) (content :: texts)
      ∧ ∃ last, texts.getLast? = some last ∧ ShowsRemoved toyCrypto last [carolOnly.kid.text])
    ∧ ∃ content texts, runTexts (FileOperation.run toyCrypto) content aliceFileRun = .ok texts
      ∧ KeepsHistory (ShowsFileRemoved toyCrypto) (content :: texts)
      ∧ ∃ last, texts.getLast? = some last ∧ ShowsFileRemoved toyCrypto last
        [carolOnly.kid.text] := by
  constructor
  · obtain ⟨content, input, texts, last, hverify, hrun, hlast, hshows⟩ := run_aliceKvRun
    refine ⟨content, texts, hrun,
      ((historyRunLaws lawful_toyCrypto).kv ⟨input, hverify⟩ ?_ hrun).mpr ?_, last, hlast, hshows⟩
    · intro operation hoperation
      rcases hoperation with _ | ⟨_, _ | ⟨_, _ | ⟨_, _ | ⟨_, h⟩⟩⟩⟩
      · exact Bool.false_ne_true
      · exact id
      · exact id
      · exact Bool.false_ne_true
      · cases h
    · -- no step rotates on its own
      refine eachStep_of_forall _ _ fun operation hoperation before after doc _ => ?_
      rcases hoperation with _ | ⟨_, _ | ⟨_, _ | ⟨_, _ | ⟨_, h⟩⟩⟩⟩
      · exact fun hdrops => Bool.false_ne_true hdrops.1
      · exact id
      · exact id
      · exact fun hdrops => Bool.false_ne_true hdrops.1
      · cases h
  · obtain ⟨content, input, texts, last, hverify, hrun, hlast, hshows⟩ := run_aliceFileRun
    refine ⟨content, texts, hrun, (historyRunLaws lawful_toyCrypto).file ⟨input, hverify⟩
      ?_ hrun, last, hlast, hshows⟩
    intro operation hoperation
    rcases hoperation with _ | ⟨_, _ | ⟨_, _ | ⟨_, h⟩⟩⟩
    · exact Bool.false_ne_true
    · exact Bool.false_ne_true
    · exact Bool.false_ne_true
    · cases h

/-- **A ROTATION FORGETS WHO WAS REMOVED**: bob's kid is in the history of the document, nothing is
    cleared, and the rotated document has no history. -/
theorem rotation_forgets :
    ∃ content text input output, verifyKvContent toyCrypto content = .ok input
      ∧ ¬(KvOperation.rewrap sameDraws aliceRotates).Clears
      ∧ runTexts (KvOperation.run toyCrypto) content [.rewrap sameDraws aliceRotates] = .ok [text]
      ∧ verifyKvContent toyCrypto text = .ok output
      ∧ bobKid.text ∈ historyKids input.wrap.removedRecipients
      ∧ historyKids output.wrap.removedRecipients = []
      ∧ ¬KeepsHistory (ShowsRemoved toyCrypto) [content, text] := by
  obtain ⟨content, text, input, output, hverify, hhistory, hrewrap, hread, hnone⟩ :=
    @rotated_withHistory (some bobRemoved) (by
      rintro history ⟨⟩
      refine ⟨by decide, fun r hr => ?_⟩
      rw [List.mem_singleton.mp hr]
      exact ⟨by decide, by decide⟩)
  have hbob : bobKid.text ∈ historyKids input.wrap.removedRecipients := by
    rw [hhistory]
    exact List.mem_cons_self
  have hnobody : historyKids output.wrap.removedRecipients = [] := by
    rw [hnone]
    rfl
  refine ⟨content, text, input, output, hverify, Bool.false_ne_true,
    bind_eq_ok.mpr ⟨text, hrewrap, rfl⟩, hread, hbob, hnobody, fun hkeeps => ?_⟩
  obtain ⟨before, after, hbefore, hafter, hsub⟩ :=
    (List.pairwise_cons.mp hkeeps).1 text List.mem_cons_self
  obtain rfl := hbefore.unique ⟨input.wrap, .read hverify, rfl⟩
  obtain rfl := hafter.unique ⟨output.wrap, .read hread, rfl⟩
  exact List.not_mem_nil (hnobody ▸ hsub _ hbob)

end HistoryRuns

import Kapsaro.TrustTransaction
import Kapsaro.Interleaving

/-!
# Trust interleaving — many writers on one trust store

Any number of commands edit the trust store of one member. Each takes the exclusive lock for one
attempt at a time; between its attempts, and while it looks at the store again, the others go on.
The code is `commit_trust_store_mutation` and the functions below it in
`service/trust/transaction.rs`.

* **`Phase`**, **`Writer`** — where a commit stands; the edit is gone once it ran.
* **`attemptStep`**, **`reobserveStep`** — one attempt under the lock, and one look at the store.
* **`EditRun`** — the record of an edit that ran; a system keeps them, newest first.
* **`Serial`** — what holds of every system that was reached: the edits form one sequence, each
  on the content the one before it left.
* **`commits_are_serial`** — every interleaving is serial.
-/

namespace TrustInterleaving

open JsonText JsonMembers Limits TextLines Base64Codec WireTexts WireModel DocumentTokens
open Envelope SignedArtifacts KeyedList TrustRecords TrustStore TrustSoundness TrustApprovals
open TrustDocument TrustTransaction Interleaving
open ToyCrypto ToyDocuments ToyTrust

/-! ## Writers -/

/-- How many times a merged write observes the store. -/
def mergedObservationLimit : Nat := 8

/-- A stale attempt has another one left for what observing the store again would find. -/
def staleAttemptLeavesRoomToReobserve (attempt : Nat) : Bool :=
  decide (attempt + 1 < mergedObservationLimit)

/-- Where a commit stands. -/
inductive Phase (P : TextParsers) where
  /-- about to take the lock, bound to an observation, with the edit still to run -/
  | prepared (attempt : Nat) (bound : TrustStorePreparation) (mutate : StoreOperation P)
  /-- about to look at the store again, with the edit handed back unused -/
  | reobserving (attempt : Nat) (mutate : StoreOperation P)
  | committed (outcome : TrustStoreMutationOutcome)
  | conflicted
  | failed (error : Error)

/-- The result of a commit that ended. -/
def Phase.result {P : TextParsers} : Phase P → Option (Except Error TrustStoreMutationOutcome)
  | .prepared _ _ _ => none
  | .reobserving _ _ => none
  | .committed outcome => some (.ok outcome)
  | .conflicted => some (.error buildTrustStoreConflictError)
  | .failed error => some (.error error)

/-- A writer; `attempts` counts how often it took the lock. -/
structure Writer (P : TextParsers) where
  gate : TrustStoreCommitGate
  mode : TrustStoreMutationMode
  signing : SigningContext
  phase : Phase P
  attempts : Nat

/-- An edit that ran: who ran it, what its commit was bound to, and what it found. -/
structure EditRun (P : TextParsers) where
  writer : Nat
  gate : TrustStoreCommitGate
  target : TrustStoreMutationTarget
  bound : TrustStorePreparation
  mutate : StoreOperation P
  window : LockWindow P
  found : Option Bytes
  state : TrustStoreState

/-- The file, the writers, and the edits that ran, newest first. -/
structure System (P : TextParsers) where
  file : Option Bytes
  writers : Nat → Writer P
  history : List (EditRun P)

/-- What can happen: a writer takes the lock, or looks at the store again. -/
inductive Action (P : TextParsers) where
  | attempt (writer : Nat) (window : LockWindow P)
  | reobserve (writer : Nat) (keystore : KeystoreAccess) (readFault : Option Error)

section Steps

variable (C : Crypto) {P : TextParsers} (path : TrustStorePath) (owner : MemberHandle)

def Writer.target (w : Writer P) : TrustStoreMutationTarget :=
  ⟨path, owner, w.mode, w.signing⟩

/-- What the gate makes of an attempt. -/
def afterAttempt (gate : TrustStoreCommitGate) (attempt : Nat) :
    Except Error (TrustStoreCommitAttempt P) → Phase P
  | .error e => .failed e
  | .ok (.committed outcome) => .committed outcome
  | .ok (.stale unused) =>
    match gate with
    -- an edit of reviewed content is never moved to other content
    | .reviewedContent => .conflicted
    | .latestContent =>
      if staleAttemptLeavesRoomToReobserve attempt then .reobserving attempt unused
      else .conflicted
  | .ok (.unusable e) =>
    match gate with
    | .reviewedContent => .conflicted
    | .latestContent => .failed (attachTrustStoreRecovery path e)

/-- What another look at the store makes of a commit. -/
def afterObservation (attempt : Nat) (mutate : StoreOperation P) :
    Except Error TrustStorePreparation → Phase P
  | .ok next => .prepared (attempt + 1) next mutate
  | .error e => .failed e

def System.setWriter (s : System P) (i : Nat) (w : Writer P) : Nat → Writer P :=
  fun j => if j = i then w else s.writers j

/-- The record of an attempt, if it ran its edit. -/
def editRunOf (s : System P) (i : Nat) (bound : TrustStorePreparation)
    (mutate : StoreOperation P) (window : LockWindow P) : List (EditRun P) :=
  let w := s.writers i
  match admittedState C (w.target path owner) bound window s.file with
  | none => []
  | some state => [⟨i, w.gate, w.target path owner, bound, mutate, window, s.file, state⟩]

/-- A writer takes the lock, and releases it. -/
def attemptStep (s : System P) (i : Nat) (window : LockWindow P) : System P :=
  let w := s.writers i
  match w.phase with
  | .prepared attempt bound mutate =>
    let result := commitBoundTrustStoreMutation C (w.target path owner) bound mutate window s.file
    { file := result.2
      writers := s.setWriter i { w with
        phase := afterAttempt path w.gate attempt result.1
        attempts := w.attempts + 1 }
      history := editRunOf C path owner s i bound mutate window ++ s.history }
  | _ => s

/-- A writer looks at the store again. -/
def reobserveStep (s : System P) (i : Nat) (keystore : KeystoreAccess)
    (readFault : Option Error) : System P :=
  let w := s.writers i
  match w.phase with
  | .reobserving attempt mutate =>
    { s with
      writers := s.setWriter i { w with
        phase := afterObservation attempt mutate
          (TrustStorePreparation.observe keystore owner (loadUnderFault readFault path s.file)) } }
  | _ => s

def step (s : System P) : Action P → System P
  | .attempt i window => attemptStep C path owner s i window
  | .reobserve i keystore readFault => reobserveStep path owner s i keystore readFault

end Steps

/-! ## What an edit left -/

section Records

variable (C : Crypto) {P : TextParsers}

namespace EditRun

def result (r : EditRun P) :
    Except Error (TrustStoreMutationOutcome × Option TrustStoreDocument) :=
  applyAndSaveTrustStore C r.target r.state r.window.now r.mutate

/-- The document the edit put into the file. -/
def published (r : EditRun P) : Option TrustStoreDocument :=
  publishedDocument C r.target r.mutate r.window r.state

/-- The file the edit left. -/
def left (r : EditRun P) : Option Bytes :=
  fileAfter (r.published C) r.found

end EditRun

/-- The edit was an approval: it adds records and drops none. -/
def IsApproval : StoreOperation P → Prop
  | .applyApprovals _ => True
  | _ => False

/-- How a write decision was carried out. -/
structure WriteObeyed (r : EditRun P) : Prop where
  /-- a skipped write leaves the file as it is -/
  skip : ∀ outcome document, r.result C = .ok (outcome, document) → outcome.write = .skip →
    r.left C = r.found
  /-- a new signature is put under the content as it was found -/
  resign : ∀ outcome document, r.result C = .ok (outcome, document) → outcome.write = .resign →
    ∃ doc, document = some doc ∧ doc.protect = r.state.protect
  /-- a save is of content that the edit says it changed -/
  save : ∀ outcome document, r.result C = .ok (outcome, document) → outcome.write = .save →
    ∃ doc protect, document = some doc
      ∧ r.mutate.mutate C r.target.owner r.state.protect = .ok (true, protect)
      ∧ doc.protect = { protect with updatedAt := r.window.now.text }
  /-- what is put into the file is what was signed -/
  published : ∀ doc, r.published C = some doc →
    ∃ outcome, r.result C = .ok (outcome, some doc)
  /-- and a write that is reported together with what was put into the file has been made: the file
      is the document -/
  reported : ∀ outcome, r.result C = .ok (outcome, r.published C) → outcome.write ≠ .skip →
    ∃ doc, r.published C = some doc ∧ r.left C = some (renderTrustStore doc)

variable {C}

theorem writeObeyed (r : EditRun P) : WriteObeyed C r where
  skip := by
    intro outcome document hresult hwrite
    rcases applyAndSave_ok hresult with ⟨_, rfl⟩ | ⟨h, _⟩ | ⟨h, _⟩
    · have hnone : r.published C = none := by
        rw [EditRun.published, publishedDocument]
        rw [EditRun.result] at hresult
        rw [hresult]
        exact ite_self none
      rw [EditRun.left, hnone]
      rfl
    · cases h.symm.trans hwrite
    · cases h.symm.trans hwrite
  resign := by
    intro outcome document hresult hwrite
    rcases applyAndSave_ok hresult with ⟨h, _⟩ | ⟨_, h⟩ | ⟨h, _⟩
    · cases h.symm.trans hwrite
    · exact h
    · cases h.symm.trans hwrite
  save := by
    intro outcome document hresult hwrite
    rcases applyAndSave_ok hresult with ⟨h, _⟩ | ⟨h, _⟩ | ⟨_, h⟩
    · cases h.symm.trans hwrite
    · cases h.symm.trans hwrite
    · exact h
  published := by
    intro doc hdoc
    rw [EditRun.published, publishedDocument] at hdoc
    rw [EditRun.result]
    split at hdoc
    · cases hdoc
    · rename_i outcome document hresult
      split at hdoc
      · cases hdoc
      · exact ⟨outcome, hdoc ▸ hresult⟩
  reported := by
    intro outcome hresult hwrite
    rcases applyAndSave_ok hresult with ⟨h, _⟩ | ⟨_, doc, hdoc, _⟩ | ⟨_, doc, _, hdoc, _⟩
    · exact absurd h hwrite
    · exact ⟨doc, hdoc, by rw [EditRun.left, hdoc, fileAfter]⟩
    · exact ⟨doc, hdoc, by rw [EditRun.left, hdoc, fileAfter]⟩

/-- What an edit puts into the file is kept, and an approval retains every record it found. -/
theorem published_kept {r : EditRun P} (hkept : Kept r.state.protect) {doc : TrustStoreDocument}
    (h : r.published C = some doc) :
    Kept doc.protect ∧ (IsApproval r.mutate → Retains r.state.protect doc.protect) := by
  obtain ⟨outcome, hresult⟩ := (writeObeyed r).published doc h
  rcases applyAndSave_ok hresult with ⟨_, hnone⟩ | ⟨_, doc', heq, hsame⟩
    | ⟨_, doc', protect, heq, hmutate, hsame⟩
  · cases hnone
  · obtain rfl := Option.some.inj heq
    rw [hsame]
    exact ⟨hkept, fun _ => Retains.refl _⟩
  · obtain rfl := Option.some.inj heq
    rw [hsame]
    refine ⟨(mutate_edited hmutate).kept hkept, fun happroval => ?_⟩
    cases hop : r.mutate with
    | applyApprovals approvals =>
      rw [hop] at hmutate
      obtain ⟨⟨applied, next⟩, happly, hmutate⟩ := bind_eq_ok.mp hmutate
      obtain ⟨_, rfl⟩ := Prod.mk.inj (Except.ok.inj hmutate)
      have hretains := (applyApprovalsTo_approved happly).retains
      exact ⟨hretains.keys, hretains.sids⟩
    | _ => rw [hop] at happroval; exact happroval.elim

theorem fileAfter_eq (published : Option TrustStoreDocument) (file : Option Bytes) :
    fileAfter published file
      = (published.map fun doc => some (renderTrustStore doc)).getD file := by
  cases published with
  | none => rfl
  | some doc => rfl

end Records

/-! ## The invariant -/

section Invariant

variable (C : Crypto) {P : TextParsers} (path : TrustStorePath) (owner : MemberHandle)

/-- Where a writer stands agrees with what it did: an edit that is still there has not run, and a
    commit that is reported did run. -/
def WriterAgrees (history : List (EditRun P)) (i : Nat) (w : Writer P) : Prop :=
  match w.phase with
  | .prepared attempt _ _ =>
    i ∉ history.map EditRun.writer ∧ w.attempts = attempt ∧ attempt < mergedObservationLimit
  | .reobserving attempt _ =>
    i ∉ history.map EditRun.writer ∧ w.attempts = attempt + 1
      ∧ attempt + 1 < mergedObservationLimit
  | .conflicted => i ∉ history.map EditRun.writer ∧ w.attempts ≤ mergedObservationLimit
      ∧ (w.gate = .latestContent → w.attempts = mergedObservationLimit)
  | .committed outcome => w.attempts ≤ mergedObservationLimit
      ∧ ∃ r ∈ history, r.writer = i ∧ r.result C = .ok (outcome, r.published C)
  | .failed _ => w.attempts ≤ mergedObservationLimit

/-- An edit is the one its writer was given, and a reviewed one is still bound to what was
    reviewed. -/
def FromStart (start : System P) (i : Nat) (gate : TrustStoreCommitGate)
    (bound : TrustStorePreparation) (mutate : StoreOperation P) : Prop :=
  ∃ first, (start.writers i).phase = .prepared 0 first mutate
    ∧ (gate = .reviewedContent → bound = first)

/-- The edit a writer still has is the one it was given; only merged writes look again. -/
def Originates (start : System P) (i : Nat) (w : Writer P) : Prop :=
  match w.phase with
  | .prepared _ bound mutate => FromStart start i w.gate bound mutate
  | .reobserving _ mutate =>
    w.gate = .latestContent ∧ ∃ first, (start.writers i).phase = .prepared 0 first mutate
  | _ => True

/-- The edits form one sequence, each on the content its commit was bound to. -/
structure Inv (start s : System P) : Prop where
  chain : Chain EditRun.found (EditRun.left C) start.file s.history s.file
  bound : ∀ r ∈ s.history, r.found = r.bound.snapshot
  target : ∀ r ∈ s.history, r.target.path = path ∧ r.target.owner = owner
  content : ∀ r ∈ s.history, StateOf r.target r.window.now r.found r.state
  once : (s.history.map EditRun.writer).Nodup
  writers : ∀ i, WriterAgrees C s.history i (s.writers i)
  given : ∀ r ∈ s.history, FromStart start r.writer r.gate r.bound r.mutate
  origin : ∀ i, Originates start i (s.writers i)

/-- Every writer is before its first attempt, and no edit has run. -/
structure Fresh (s : System P) : Prop where
  history : s.history = []
  writers : ∀ i, (s.writers i).attempts = 0
    ∧ ∃ bound mutate, (s.writers i).phase = .prepared 0 bound mutate

variable {C path owner}

theorem inv_of_fresh {s : System P} (h : Fresh s) : Inv C path owner s s where
  chain := by
    rw [h.history]
    exact rfl
  bound := by
    rw [h.history]
    exact fun _ hr => absurd hr List.not_mem_nil
  target := by
    rw [h.history]
    exact fun _ hr => absurd hr List.not_mem_nil
  content := by
    rw [h.history]
    exact fun _ hr => absurd hr List.not_mem_nil
  once := by
    rw [h.history]
    exact List.nodup_nil
  writers := by
    intro i
    obtain ⟨hattempts, bound, mutate, hphase⟩ := h.writers i
    rw [WriterAgrees, hphase, h.history]
    exact ⟨List.not_mem_nil, hattempts, by decide⟩
  given := by
    rw [h.history]
    exact fun _ hr => absurd hr List.not_mem_nil
  origin := by
    intro i
    obtain ⟨_, bound, mutate, hphase⟩ := h.writers i
    rw [Originates, hphase]
    exact ⟨bound, hphase, fun _ => rfl⟩

/-- An entry of the history of another writer says nothing about this one. -/
theorem WriterAgrees.cons {history : List (EditRun P)} {i : Nat} {w : Writer P}
    (h : WriterAgrees C history i w) {r : EditRun P} (hr : r.writer ≠ i) :
    WriterAgrees C (r :: history) i w := by
  have hfresh : i ∉ history.map EditRun.writer → i ∉ (r :: history).map EditRun.writer := by
    intro hnot hmem
    rcases List.mem_cons.mp hmem with heq | hmem
    · exact hr heq.symm
    · exact hnot hmem
  rw [WriterAgrees] at h ⊢
  cases hphase : w.phase with
  | prepared attempt bound mutate =>
    rw [hphase] at h
    exact ⟨hfresh h.1, h.2⟩
  | reobserving attempt mutate =>
    rw [hphase] at h
    exact ⟨hfresh h.1, h.2⟩
  | conflicted =>
    rw [hphase] at h
    exact ⟨hfresh h.1, h.2⟩
  | committed outcome =>
    rw [hphase] at h
    obtain ⟨hattempts, r', hr', hwriter, hresult⟩ := h
    exact ⟨hattempts, r', List.mem_cons_of_mem _ hr', hwriter, hresult⟩
  | failed e =>
    rw [hphase] at h
    exact h

/-- A property of the writers holds after one of them moved if the new one has it. -/
theorem forall_setWriter {s : System P} {i : Nat} {w : Writer P} {Q : Nat → Writer P → Prop}
    (hi : Q i w) (hother : ∀ j, j ≠ i → Q j (s.writers j)) : ∀ j, Q j (s.setWriter i w j) := by
  intro j
  by_cases hj : j = i
  · subst hj
    rw [System.setWriter, if_pos rfl]
    exact hi
  · rw [System.setWriter, if_neg hj]
    exact hother j hj

/-- A writer looks at the store again: nothing but its own phase moves. -/
theorem inv_reobserve {start s : System P} (h : Inv C path owner start s) (i : Nat)
    (keystore : KeystoreAccess) (readFault : Option Error) :
    Inv C path owner start (reobserveStep path owner s i keystore readFault) := by
  have hagrees := h.writers i
  have horigin := h.origin i
  rw [WriterAgrees] at hagrees
  rw [Originates] at horigin
  rw [reobserveStep]
  cases hphase : (s.writers i).phase with
  | reobserving attempt mutate =>
    rw [hphase] at hagrees horigin
    obtain ⟨hnot, hattempts, hroom⟩ := hagrees
    obtain ⟨hgate, first, hfirst⟩ := horigin
    refine { h with
      writers := forall_setWriter ?_ fun j _ => h.writers j
      origin := forall_setWriter ?_ fun j _ => h.origin j }
    · rw [WriterAgrees]
      cases TrustStorePreparation.observe keystore owner
          (loadUnderFault readFault path s.file) with
      | ok next => exact ⟨hnot, hattempts, hroom⟩
      | error e => exact hattempts ▸ Nat.le_of_lt hroom
    · rw [Originates]
      cases TrustStorePreparation.observe keystore owner
          (loadUnderFault readFault path s.file) with
      | ok next => exact ⟨first, hfirst, fun heq => (by cases hgate.symm.trans heq)⟩
      | error e => exact trivial
  | _ => exact h

/-- An attempt that did not run its edit leaves a writer that agrees with an unchanged history. -/
theorem agrees_refused {history : List (EditRun P)} {i attempt : Nat} {w : Writer P}
    (hnot : i ∉ history.map EditRun.writer) (hattempts : w.attempts = attempt)
    (hlimit : attempt < mergedObservationLimit)
    {result : Except Error (TrustStoreCommitAttempt P)}
    (hresult : ∀ outcome, result ≠ .ok (.committed outcome)) :
    WriterAgrees C history i { w with
      phase := afterAttempt path w.gate attempt result
      attempts := w.attempts + 1 } := by
  subst hattempts
  rw [WriterAgrees]
  cases result with
  | error e => exact hlimit
  | ok attempted =>
    cases attempted with
    | committed outcome => exact absurd rfl (hresult outcome)
    | stale unused =>
      cases hgate : w.gate with
      | reviewedContent => exact ⟨hnot, hlimit, nofun⟩
      | latestContent =>
        have hnext : afterAttempt path .latestContent w.attempts (.ok (.stale unused))
            = if staleAttemptLeavesRoomToReobserve w.attempts then .reobserving w.attempts unused
              else .conflicted := rfl
        rw [hnext]
        by_cases hroom : w.attempts + 1 < mergedObservationLimit
        · have hleft : staleAttemptLeavesRoomToReobserve w.attempts = true := decide_eq_true hroom
          rw [if_pos hleft]
          exact ⟨hnot, rfl, hroom⟩
        · have hleft : ¬staleAttemptLeavesRoomToReobserve w.attempts = true :=
            fun h => hroom (of_decide_eq_true h)
          rw [if_neg hleft]
          exact ⟨hnot, hlimit, fun _ => Nat.le_antisymm hlimit (Nat.le_of_not_lt hroom)⟩
    | unusable e =>
      cases hgate : w.gate with
      | reviewedContent => exact ⟨hnot, hlimit, nofun⟩
      | latestContent => exact hlimit

/-- Whatever an attempt comes back with, the edit handed on is the one that was given. -/
theorem originates_afterAttempt {start : System P} {i attempt : Nat} {w : Writer P}
    {bound : TrustStorePreparation} {mutate : StoreOperation P} {window : LockWindow P}
    {file : Option Bytes} (h : FromStart start i w.gate bound mutate) :
    Originates start i { w with
      phase := afterAttempt path w.gate attempt (commitBoundTrustStoreMutation C
        (w.target path owner) bound mutate window file).1
      attempts := w.attempts + 1 } := by
  obtain ⟨first, hfirst, _⟩ := h
  rw [Originates]
  cases hresult : (commitBoundTrustStoreMutation C (w.target path owner) bound mutate window
      file).1 with
  | error e => exact trivial
  | ok attempted =>
    cases attempted with
    | committed outcome => exact trivial
    | unusable e =>
      cases hgate : w.gate with
      | reviewedContent => exact trivial
      | latestContent => exact trivial
    | stale unused =>
      obtain ⟨rfl, _⟩ := commitBound_stale hresult
      cases hgate : w.gate with
      | reviewedContent => exact trivial
      | latestContent =>
        have hnext : afterAttempt path .latestContent attempt (.ok (.stale unused))
            = if staleAttemptLeavesRoomToReobserve attempt then .reobserving attempt unused
              else .conflicted := rfl
        rw [hnext]
        by_cases hroom : staleAttemptLeavesRoomToReobserve attempt = true
        · rw [if_pos hroom]
          exact ⟨rfl, first, hfirst⟩
        · rw [if_neg hroom]
          exact trivial

/-- A writer takes the lock: either its edit does not run and the file stays, or it runs on the
    content it is bound to and becomes the newest of the history. -/
theorem inv_attempt {start s : System P} (h : Inv C path owner start s) (i : Nat)
    (window : LockWindow P) :
    Inv C path owner start (attemptStep C path owner s i window) := by
  have hagrees := h.writers i
  have horigin := h.origin i
  rw [WriterAgrees] at hagrees
  rw [Originates] at horigin
  rw [attemptStep]
  cases hphase : (s.writers i).phase with
  | prepared attempt bound mutate =>
    rw [hphase] at hagrees horigin
    obtain ⟨hnot, hattempts, hlimit⟩ := hagrees
    dsimp only
    cases hadmit : admittedState C ((s.writers i).target path owner) bound window s.file with
    | none =>
      obtain ⟨hsame, hresult⟩ := commitBound_refused mutate hadmit
      have hhistory : editRunOf C path owner s i bound mutate window = [] := by
        rw [editRunOf, hadmit]
      rw [hhistory, hsame, List.nil_append]
      exact { h with
        writers := forall_setWriter (agrees_refused hnot hattempts hlimit hresult)
          fun j _ => h.writers j
        origin := forall_setWriter (originates_afterAttempt horigin) fun j _ => h.origin j }
    | some state =>
      obtain ⟨hfile, hresult⟩ := commitBound_ran mutate hadmit
      obtain ⟨hbound, hstate⟩ := admittedState_some hadmit
      have hhistory : editRunOf C path owner s i bound mutate window
          = [⟨i, (s.writers i).gate, (s.writers i).target path owner, bound, mutate, window,
              s.file, state⟩] := by
        rw [editRunOf, hadmit]
      rw [hhistory, hfile, List.singleton_append]
      refine
        { chain := h.chain.cons rfl
          bound := List.forall_mem_cons.mpr ⟨hbound, h.bound⟩
          target := List.forall_mem_cons.mpr ⟨⟨rfl, rfl⟩, h.target⟩
          content := List.forall_mem_cons.mpr ⟨hstate, h.content⟩
          once := List.nodup_cons.mpr ⟨hnot, h.once⟩
          writers := forall_setWriter ?_ fun j hj => (h.writers j).cons hj.symm
          given := List.forall_mem_cons.mpr ⟨horigin, h.given⟩
          origin := forall_setWriter (originates_afterAttempt horigin) fun j _ => h.origin j }
      rw [WriterAgrees]
      rcases hresult with ⟨e, herror⟩ | ⟨outcome, hdone, happly⟩
      · rw [herror]
        exact hattempts ▸ hlimit
      · rw [hdone]
        exact ⟨hattempts ▸ hlimit, _, List.mem_cons_self, rfl, happly⟩
  | _ => exact h

/-- **EVERY STEP KEEPS THE INVARIANT**. -/
theorem inv_step {start s : System P} (h : Inv C path owner start s) (action : Action P) :
    Inv C path owner start (step C path owner s action) := by
  cases action with
  | attempt i window => exact inv_attempt h i window
  | reobserve i keystore readFault => exact inv_reobserve h i keystore readFault

/-! ## What the invariant says -/

/-- The document that was put into the file last. -/
def lastPublished (C : Crypto) (history : List (EditRun P)) : Option TrustStoreDocument :=
  lastPut (EditRun.published C) history

/-- What is put into the file is kept. -/
theorem Inv.kept {start s : System P} (h : Inv C path owner start s) {history : List (EditRun P)}
    (hsub : ∀ r ∈ history, r ∈ s.history) {doc : TrustStoreDocument}
    (hdoc : lastPublished C history = some doc) : Kept doc.protect := by
  obtain ⟨r, hr, hpublished⟩ := lastPut_eq_some hdoc
  exact (published_kept (h.content r (hsub r hr)).kept hpublished).1

/-- A split of the history is the history of an earlier time. -/
theorem Inv.found {start s : System P} (h : Inv C path owner start s)
    {later earlier : List (EditRun P)} {r : EditRun P}
    (hsplit : s.history = later ++ r :: earlier) :
    r.found = ((lastPublished C earlier).map fun doc => some (renderTrustStore doc)).getD
      start.file := by
  have hchain := h.chain
  rw [hsplit] at hchain
  exact hchain.earlier.value fun r _ => fileAfter_eq (r.published C) r.found

/-- **NOTHING IS LOST**: the content an edit ran on is the one that was put into the file last. -/
theorem Inv.input {start s : System P} (h : Inv C path owner start s)
    {later earlier : List (EditRun P)} {r : EditRun P} {doc : TrustStoreDocument}
    (hsplit : s.history = later ++ r :: earlier) (hdoc : lastPublished C earlier = some doc) :
    r.state.protect = doc.protect := by
  have hfound := h.found hsplit
  rw [hdoc] at hfound
  have hmem : r ∈ s.history := hsplit ▸ List.mem_append_right _ List.mem_cons_self
  have hkept : Kept doc.protect := h.kept (fun r' hr' =>
    hsplit ▸ List.mem_append_right _ (List.mem_cons_of_mem _ hr')) hdoc
  rcases h.content r hmem with ⟨hholds, _⟩ | ⟨hnone, _⟩
  · rw [hfound] at hholds
    exact holds_render hkept hholds
  · cases hfound.symm.trans hnone

/-- **RECORDS STAY**: as long as only approvals follow, every record that was put into the file is
    in the content of each later edit. -/
theorem Inv.retained {start s : System P} (h : Inv C path owner start s)
    {later middle earlier : List (EditRun P)} {r older : EditRun P} {doc : TrustStoreDocument}
    (hsplit : s.history = later ++ r :: (middle ++ older :: earlier))
    (happrovals : ∀ r' ∈ middle, IsApproval r'.mutate)
    (hdoc : older.published C = some doc) : Retains doc.protect r.state.protect := by
  induction middle generalizing later r with
  | nil =>
    have hlast : lastPublished C (older :: earlier) = some doc := by
      rw [lastPublished, lastPut, hdoc]
    rw [h.input hsplit hlast]
    exact Retains.refl _
  | cons next middle ih =>
    -- `next` is the edit just before `r`: it retains what it found, and `r` finds what it left
    have hnext : s.history = (later ++ [r]) ++ next :: (middle ++ older :: earlier) := by
      rw [hsplit, List.append_assoc]
      rfl
    have hretained := ih hnext fun r' hr' => happrovals r' (List.mem_cons_of_mem _ hr')
    have hmem : next ∈ s.history := hnext ▸ List.mem_append_right _ List.mem_cons_self
    cases hpublished : next.published C with
    | some doc' =>
      have hlast : lastPublished C (next :: (middle ++ older :: earlier)) = some doc' := by
        rw [lastPublished, lastPut, hpublished]
      rw [h.input hsplit hlast]
      exact hretained.trans ((published_kept (h.content next hmem).kept hpublished).2
        (happrovals next List.mem_cons_self))
    | none =>
      have hmem' : older ∈ middle ++ older :: earlier :=
        List.mem_append_right _ List.mem_cons_self
      obtain ⟨before, hbefore⟩ : ∃ before,
          lastPublished C (middle ++ older :: earlier) = some before := exists_lastPut hmem' hdoc
      have hlast : lastPublished C (next :: (middle ++ older :: earlier)) = some before := by
        rw [lastPublished, lastPut, hpublished]
        exact hbefore
      rw [h.input hsplit hlast, ← h.input hnext hbefore]
      exact hretained

/-! ## Every interleaving is serial -/

variable (C path owner)

/-- What a lock window over bytes that moved does: nothing runs and nothing is written, and where
    nothing else fails the commit ends in a conflict, or looks again while it has attempts left. -/
structure Refused (s : System P) (i attempt : Nat) (window : LockWindow P) : Prop where
  file : (attemptStep C path owner s i window).file = s.file
  history : (attemptStep C path owner s i window).history = s.history
  reviewed : window.Calm → (s.writers i).gate = .reviewedContent →
    ((attemptStep C path owner s i window).writers i).phase = .conflicted
  latest : window.Calm → (s.writers i).gate = .latestContent →
    attempt + 1 = mergedObservationLimit →
      ((attemptStep C path owner s i window).writers i).phase = .conflicted
        ∨ ∃ e, ((attemptStep C path owner s i window).writers i).phase
          = .failed (attachTrustStoreRecovery path e)

/-- What holds of every system that is reached from one where nobody has begun. -/
structure Serial (start s : System P) : Prop where
  /-- the file holds the document that was put into it last -/
  file : s.file = ((lastPublished C s.history).map fun doc => some (renderTrustStore doc)).getD
    start.file
  /-- an edit is the one its writer was given, and a reviewed one is bound to the reviewed bytes -/
  given : ∀ r ∈ s.history, FromStart start r.writer r.gate r.bound r.mutate
  /-- an edit ran only on the bytes its commit was bound to -/
  bound : ∀ r ∈ s.history, r.found = r.bound.snapshot
  /-- it ran on the content of these bytes -/
  content : ∀ r ∈ s.history, StateOf r.target r.window.now r.found r.state
  /-- the content is the one that was put into the file last -/
  input : ∀ later earlier r doc, s.history = later ++ r :: earlier →
    lastPublished C earlier = some doc → r.state.protect = doc.protect
  /-- records stay where only approvals follow -/
  retained : ∀ later middle earlier r older doc,
    s.history = later ++ r :: (middle ++ older :: earlier) →
    (∀ r' ∈ middle, IsApproval r'.mutate) → older.published C = some doc →
      Retains doc.protect r.state.protect
  /-- the write decision was carried out -/
  write : ∀ r ∈ s.history, WriteObeyed C r
  /-- an edit ran at most once -/
  once : (s.history.map EditRun.writer).Nodup
  /-- a commit that has not ended, or ended in a conflict, ran nothing -/
  untouched : ∀ i, ((s.writers i).phase.result = none ∨ (s.writers i).phase = .conflicted) →
    i ∉ s.history.map EditRun.writer
  /-- a commit that is reported did run, and the write it reports left the signed document in the
      file -/
  committed : ∀ i outcome, (s.writers i).phase = .committed outcome →
    ∃ r ∈ s.history, r.writer = i ∧ r.result C = .ok (outcome, r.published C)
      ∧ (outcome.write ≠ .skip →
        ∃ doc, r.published C = some doc ∧ r.left C = some (renderTrustStore doc))
  /-- nobody takes the lock more than eight times -/
  attempts : ∀ i, (s.writers i).attempts ≤ mergedObservationLimit
  /-- after the last attempt a commit has ended -/
  exhausted : ∀ i, (s.writers i).attempts = mergedObservationLimit →
    (s.writers i).phase.result ≠ none
  /-- a merged write ends in a conflict only after its last attempt -/
  patient : ∀ i, (s.writers i).phase = .conflicted → (s.writers i).gate = .latestContent →
    (s.writers i).attempts = mergedObservationLimit
  /-- bytes that moved are not edited -/
  refused : ∀ i attempt bound mutate window, (s.writers i).phase = .prepared attempt bound mutate →
    s.file ≠ bound.snapshot → Refused C path owner s i attempt window

variable {C path owner}

/-- Bytes that moved are not edited, in any state. -/
theorem refused_of_moved {s : System P} {i attempt : Nat} {bound : TrustStorePreparation}
    {mutate : StoreOperation P} (window : LockWindow P)
    (hphase : (s.writers i).phase = .prepared attempt bound mutate)
    (hmoved : s.file ≠ bound.snapshot) : Refused C path owner s i attempt window := by
  have hadmit : admittedState C ((s.writers i).target path owner) bound window s.file = none := by
    cases hadmit : admittedState C ((s.writers i).target path owner) bound window s.file with
    | none => rfl
    | some state => exact absurd (admittedState_some hadmit).1 hmoved
  have hnext : ((attemptStep C path owner s i window).writers i).phase
      = afterAttempt path (s.writers i).gate attempt (commitBoundTrustStoreMutation C
        ((s.writers i).target path owner) bound mutate window s.file).1 := by
    rw [attemptStep, hphase]
    show (s.setWriter i _ i).phase = _
    rw [System.setWriter, if_pos rfl]
  refine ⟨?_, ?_, fun hcalm hgate => ?_, fun hcalm hgate hlast => ?_⟩
  · rw [attemptStep, hphase]
    exact (commitBound_refused mutate hadmit).1
  · rw [attemptStep, hphase]
    show editRunOf C path owner s i bound mutate window ++ s.history = s.history
    rw [editRunOf, hadmit]
    rfl
  · rw [hnext, hgate]
    rcases commitBound_moved hcalm hmoved with hstale | ⟨e, hunusable⟩
    · rw [hstale]
      rfl
    · rw [hunusable]
      rfl
  · rw [hnext, hgate]
    rcases commitBound_moved hcalm hmoved with hstale | ⟨e, hunusable⟩
    · rw [hstale]
      have hroom : ¬staleAttemptLeavesRoomToReobserve attempt = true :=
        fun h => absurd (of_decide_eq_true h) (by omega)
      exact Or.inl (if_neg hroom)
    · rw [hunusable]
      exact Or.inr ⟨e, rfl⟩

theorem serial_of_inv {start s : System P} (h : Inv C path owner start s) :
    Serial C path owner start s where
  file := h.chain.value fun r _ => fileAfter_eq (r.published C) r.found
  given := h.given
  bound := h.bound
  content := h.content
  input := fun _ _ _ _ hsplit hdoc => h.input hsplit hdoc
  retained := fun _ _ _ _ _ _ hsplit happrovals hdoc => h.retained hsplit happrovals hdoc
  write := fun r _ => writeObeyed r
  once := h.once
  -- The rest is read off the phase of each writer.
  untouched := by
    intro i hi
    have hagrees := h.writers i
    rw [WriterAgrees] at hagrees
    cases hphase : (s.writers i).phase with
    | prepared attempt bound mutate => rw [hphase] at hagrees; exact hagrees.1
    | reobserving attempt mutate => rw [hphase] at hagrees; exact hagrees.1
    | conflicted => rw [hphase] at hagrees; exact hagrees.1
    | committed outcome => rw [hphase] at hi; exact hi.elim nofun nofun
    | failed e => rw [hphase] at hi; exact hi.elim nofun nofun
  committed := by
    intro i outcome hphase
    have hagrees := h.writers i
    rw [WriterAgrees, hphase] at hagrees
    obtain ⟨r, hr, hwriter, hresult⟩ := hagrees.2
    exact ⟨r, hr, hwriter, hresult, (writeObeyed r).reported outcome hresult⟩
  attempts := by
    intro i
    have hagrees := h.writers i
    rw [WriterAgrees] at hagrees
    cases hphase : (s.writers i).phase with
    | prepared attempt bound mutate =>
      rw [hphase] at hagrees
      exact hagrees.2.1 ▸ Nat.le_of_lt hagrees.2.2
    | reobserving attempt mutate =>
      rw [hphase] at hagrees
      exact hagrees.2.1 ▸ Nat.le_of_lt hagrees.2.2
    | conflicted => rw [hphase] at hagrees; exact hagrees.2.1
    | committed outcome => rw [hphase] at hagrees; exact hagrees.1
    | failed e => rw [hphase] at hagrees; exact hagrees
  exhausted := by
    intro i hattempts
    have hagrees := h.writers i
    rw [WriterAgrees, hattempts] at hagrees
    cases hphase : (s.writers i).phase with
    | prepared attempt bound mutate =>
      rw [hphase] at hagrees
      exact absurd hagrees.2.1 (Nat.ne_of_gt hagrees.2.2)
    | reobserving attempt mutate =>
      rw [hphase] at hagrees
      exact absurd hagrees.2.1 (Nat.ne_of_gt hagrees.2.2)
    | conflicted => exact nofun
    | committed outcome => exact nofun
    | failed e => exact nofun
  patient := by
    intro i hphase hgate
    have hagrees := h.writers i
    rw [WriterAgrees, hphase] at hagrees
    exact hagrees.2.2 hgate
  refused := fun _ _ _ _ window hphase hmoved => refused_of_moved window hphase hmoved

/-- **COMMITS ARE SERIAL**: however the attempts and the observations of any number of writers
    interleave, the edits that ran form one sequence, each ran at most once and on the content that
    was put into the file last, and whoever ends in a conflict touched nothing. -/
theorem commits_are_serial {start : System P} (hstart : Fresh start)
    (actions : List (Action P)) :
    Serial C path owner start (run (step C path owner) start actions) :=
  serial_of_inv (@run_invariant _ _ (step C path owner) (Inv C path owner start)
    (fun _ action h => inv_step h action) _ (inv_of_fresh hstart) actions)

end Invariant

/-! ## Two writers -/

def toyPath : TrustStorePath := ⟨"trust/alice.json", "alice"⟩

/-- The first writer approves bob's key, every other one a recipient set. -/
def toyEdit (j : Nat) : StoreOperation toyParsers :=
  if j = 0 then
    .applyApprovals [(.knownKey ⟨⟨(toyMember bob bobKid [2]).toLoadedPublicKey⟩, .none,
      validateFor_toyBob⟩, toyNow)]
  else
    .applyApprovals [(.recipientSet ⟨toySid, [bobKid, toyKid], [⟨bobKid, bob⟩, ⟨toyKid, alice⟩]⟩,
      toyNow)]

/-- All saw that there is no store yet. -/
def toySystem : System toyParsers where
  file := none
  writers := fun j => {
    gate := .latestContent
    mode := .createIfMissing
    signing := toySigning alice [1]
    phase := .prepared 0 ⟨none, ⟨alice, "keys", none⟩⟩ (toyEdit j)
    attempts := 0 }
  history := []

def toyWindow : LockWindow toyParsers := ⟨none, none, none, toyNow⟩

/-- The first writer commits; the second finds its observation stale, and looks again. -/
def toyActions : List (Action toyParsers) :=
  [.attempt 0 toyWindow, .attempt 1 toyWindow,
    .reobserve 1 ⟨"keys", fun _ _ => .ok (some (toyStatement alice toyKid [1]))⟩ none,
    .attempt 1 toyWindow]

theorem fresh_toySystem : Fresh toySystem where
  history := rfl
  writers := fun j => ⟨rfl, ⟨none, ⟨alice, "keys", none⟩⟩, toyEdit j, rfl⟩

theorem commits_are_serial_toy :
    Serial toyCrypto toyPath alice toySystem
        (run (step toyCrypto toyPath alice) toySystem toyActions)
      ∧ (step toyCrypto toyPath alice toySystem (.attempt 0 toyWindow)).history.map
        EditRun.writer = [0] :=
  ⟨commits_are_serial fresh_toySystem toyActions, rfl⟩

end TrustInterleaving

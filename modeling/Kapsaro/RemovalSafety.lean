import Kapsaro.ReviewedRemoval

/-!
# Removal safety — no interleaving deletes what was not reviewed

The reviewed removals, with others acting between any two of their calls.  The others leave the
quarantine name alone; everything else they may do, writing into files they hold open included.

* **`Sound`** — the invariant; **`sound_operation`**, **`sound_outside`** — every call of the
  operation keeps it, and so does everyone else; **`sound_run`** — it holds along every
  interleaving.
* **`tree_of_run`**, **`kept_by_operation`** — where nothing was moved the operation changed
  nothing, and no call of it loses a file.
* **`removal_safe`** — what is deleted is the reviewed file, and nothing else is lost.
* **`rewritten_in_place`** — what the last check cannot see.
-/

namespace RemovalSafety

open Limits Interleaving ReviewedRemoval

/-! ## The invariant -/

section Invariant

variable {α : Type} (op : Removal α)

/-- Nothing was moved yet. -/
structure Untouched (s : System α) : Prop where
  moved : s.ledger.moved = none
  deleted : s.ledger.deleted = none

/-- A file stands under the quarantine name. -/
structure Standing (s : System α) (inode : Nat) : Prop where
  moved : s.ledger.moved = some inode
  deleted : s.ledger.deleted = none
  entry : s.tree.entries op.aside = some inode

/-- The reviewed file was deleted, with the reviewed bytes in it if nobody wrote into it since it
    was identified. -/
structure Deleted (s : System α) : Prop where
  moved : s.ledger.moved = some op.reviewed.identity
  identified : s.ledger.identified = true
  deleted : ∃ node, s.ledger.deleted = some (op.reviewed.identity, node)
    ∧ (s.ledger.rewritten = false → node = .regular op.reviewed.rawBytes)

/-- The file was put back, where it is if nobody took it. -/
structure Restored (s : System α) (inode : Nat) : Prop where
  moved : s.ledger.moved = some inode
  deleted : s.ledger.deleted = none
  restored : s.ledger.restored = true
  entry : s.ledger.disturbed = false → s.tree.entries op.path = some inode

/-- The file about to be deleted. -/
structure Identified (s : System α) : Prop extends Standing op s op.reviewed.identity where
  identified : s.ledger.identified = true
  unwritten : s.ledger.rewritten = false →
    s.tree.nodes op.reviewed.identity = .regular op.reviewed.rawBytes

/-- How an operation can end without an answer. -/
def Failed (s : System α) : Prop :=
  Untouched s ∨ (∃ inode, Standing op s inode) ∨ Deleted op s ∨ ∃ inode, Restored op s inode

/-- What holds before each call. -/
def Sound (s : System α) : Prop :=
  match s.phase with
  | .openDirectory => Untouched s
  | .inspectPath _ => Untouched s
  | .moveAside => Untouched s
  | .inspectAside call => ∃ inode, Standing op s inode ∧ call.Opened inode
  | .delete => Identified op s
  | .syncDeletion => Deleted op s
  | .restore _ => ∃ inode, Standing op s inode
  | .syncRestoration _ => ∃ inode, Restored op s inode
  | .done (.ok _) => Deleted op s
  | .done (.error _) => Failed op s

variable {op}

/-- **EVERY CALL KEEPS THE INVARIANT**, whether it fails or not. -/
theorem sound_operation {s : System α} (h : Sound op s) (fault : Option Error) :
    Sound op (operationStep op s fault) := by
  -- One case for each phase: what `Sound` says of it is what the next phase relies on.
  obtain ⟨tree, phase, ledger⟩ := s
  cases phase with
  | openDirectory =>
    have h : Untouched _ := h
    cases fault with
    | some e => exact Or.inl ⟨h.moved, h.deleted⟩
    | none =>
      show Sound op (if tree.statusDir = op.dir then _ else _)
      split
      · exact ⟨h.moved, h.deleted⟩
      · exact Or.inl ⟨h.moved, h.deleted⟩
  | inspectPath call =>
    have h : Untouched _ := h
    simp only [operationStep]
    split
    · exact ⟨h.moved, h.deleted⟩
    · exact ⟨h.moved, h.deleted⟩
    · exact Or.inl ⟨h.moved, h.deleted⟩
    · exact Or.inl ⟨h.moved, h.deleted⟩
  | moveAside =>
    have h : Untouched _ := h
    simp only [operationStep]
    split
    · exact Or.inl ⟨h.moved, h.deleted⟩
    -- From here on the entry stands aside, under the inode that was moved.
    · rename_i inode tree' heq
      obtain ⟨_, _, rfl⟩ := renameNoreplace_ok heq
      refine ⟨inode, ⟨rfl, h.deleted, ?_⟩, trivial⟩
      exact Tree.entries_setEntry_self _ _ _
  | inspectAside call =>
    obtain ⟨inode, hstanding, hopened⟩ := h
    simp only [operationStep]
    split
    · rename_i next heq
      exact ⟨inode, ⟨hstanding.moved, hstanding.deleted, hstanding.entry⟩,
        opened_of_inspect hstanding.entry hopened heq⟩
    -- The held file is still the reviewed one, with the reviewed bytes.
    · rename_i heq
      obtain ⟨rfl, hnode⟩ := identified_of_inspect hopened heq
      exact {
        moved := hstanding.moved
        deleted := hstanding.deleted
        entry := hstanding.entry
        identified := rfl
        unwritten := fun _ => hnode }
    · exact ⟨inode, hstanding.moved, hstanding.deleted, hstanding.entry⟩
    · exact ⟨inode, hstanding.moved, hstanding.deleted, hstanding.entry⟩
  | delete =>
    have h : Identified op _ := h
    have hstanding := h.toStanding
    cases fault with
    | some e =>
      exact Or.inr (Or.inl ⟨_, hstanding.moved, hstanding.deleted, hstanding.entry⟩)
    | none =>
      have hentry := hstanding.entry
      dsimp only at hentry
      simp only [operationStep, hentry]
      exact ⟨hstanding.moved, h.identified, _, rfl, h.unwritten⟩
  | syncDeletion =>
    have h : Deleted op _ := h
    cases fault with
    | some e => exact Or.inr (Or.inr (Or.inl ⟨h.moved, h.identified, h.deleted⟩))
    | none => exact ⟨h.moved, h.identified, h.deleted⟩
  | restore reason =>
    obtain ⟨inode, hstanding⟩ := h
    simp only [operationStep]
    split
    · exact Or.inr (Or.inl ⟨inode, hstanding.moved, hstanding.deleted, hstanding.entry⟩)
    · rename_i moved tree' heq
      obtain ⟨hsource, _, rfl⟩ := renameNoreplace_ok heq
      have hentry : tree.entries op.aside = some inode := hstanding.entry
      obtain rfl := Option.some.inj (hsource.symm.trans hentry)
      exact ⟨_, hstanding.moved, hstanding.deleted, rfl,
        fun _ => Tree.entries_setEntry_self _ _ _⟩
  | syncRestoration reason =>
    obtain ⟨inode, h⟩ := h
    cases fault with
    | some e => exact Or.inr (Or.inr (Or.inr ⟨inode, h.moved, h.deleted, h.restored, h.entry⟩))
    | none => exact Or.inr (Or.inr (Or.inr ⟨inode, h.moved, h.deleted, h.restored, h.entry⟩))
  | done result => exact h

/-- Others note nothing about what the operation did. -/
theorem note_kept (op : Removal α) (ledger : Ledger) (o : Outside) :
    (ledger.note op o).moved = ledger.moved ∧ (ledger.note op o).deleted = ledger.deleted
      ∧ (ledger.note op o).identified = ledger.identified
      ∧ (ledger.note op o).restored = ledger.restored := by
  cases o <;> exact ⟨rfl, rfl, rfl, rfl⟩

theorem entries_aside_apply (t : Tree) {o : Outside} (h : o.Spares op.aside) :
    (o.apply t).entries op.aside = t.entries op.aside := by
  cases o with
  | setEntry place entry => exact t.entries_setEntry_ne entry (Ne.symm h)
  | write inode node => rfl
  | repoint dir => rfl

theorem Untouched.outside {s : System α} (h : Untouched s) (o : Outside) :
    Untouched (step op s (.outside o)) := by
  obtain ⟨hmoved, hdeleted, _⟩ := note_kept op s.ledger o
  exact ⟨hmoved.trans h.moved, hdeleted.trans h.deleted⟩

theorem Standing.outside {s : System α} {inode : Nat} (h : Standing op s inode) {o : Outside}
    (hspares : o.Spares op.aside) : Standing op (step op s (.outside o)) inode := by
  obtain ⟨hmoved, hdeleted, _⟩ := note_kept op s.ledger o
  exact ⟨hmoved.trans h.moved, hdeleted.trans h.deleted,
    (entries_aside_apply s.tree hspares).trans h.entry⟩

theorem Deleted.outside {s : System α} (h : Deleted op s) (o : Outside) :
    Deleted op (step op s (.outside o)) := by
  obtain ⟨hmoved, hdeleted, hidentified, _⟩ := note_kept op s.ledger o
  obtain ⟨node, hnode, hbytes⟩ := h.deleted
  refine ⟨hmoved.trans h.moved, hidentified.trans h.identified, node, hdeleted.trans hnode, ?_⟩
  intro hrewritten
  refine hbytes ?_
  cases o with
  | setEntry place entry => exact hrewritten
  | write inode node => exact (Bool.or_eq_false_iff.mp hrewritten).1
  | repoint dir => exact hrewritten

theorem Restored.outside {s : System α} {inode : Nat} (h : Restored op s inode) (o : Outside) :
    Restored op (step op s (.outside o)) inode := by
  obtain ⟨hmoved, hdeleted, _, hrestored⟩ := note_kept op s.ledger o
  refine ⟨hmoved.trans h.moved, hdeleted.trans h.deleted, hrestored.trans h.restored, ?_⟩
  intro hdisturbed
  cases o with
  | setEntry place entry =>
    obtain ⟨hearlier, hplace⟩ := Bool.or_eq_false_iff.mp hdisturbed
    rw [h.restored, Bool.true_and] at hplace
    have hne : op.path ≠ place := Ne.symm (of_decide_eq_false hplace)
    exact (s.tree.entries_setEntry_ne entry hne).trans (h.entry hearlier)
  | write inode node => exact h.entry hdisturbed
  | repoint dir => exact h.entry hdisturbed

theorem Identified.outside {s : System α} (h : Identified op s) {o : Outside}
    (hspares : o.Spares op.aside) : Identified op (step op s (.outside o)) := by
  obtain ⟨_, _, hidentified, _⟩ := note_kept op s.ledger o
  refine ⟨h.toStanding.outside hspares, hidentified.trans h.identified, ?_⟩
  intro hrewritten
  cases o with
  | setEntry place entry => exact h.unwritten hrewritten
  | write inode node =>
    obtain ⟨hearlier, hother⟩ := Bool.or_eq_false_iff.mp hrewritten
    rw [h.deleted, Option.isNone_none, Bool.true_and] at hother
    have hne : op.reviewed.identity ≠ inode := by
      rintro rfl
      exact of_decide_eq_false hother h.moved
    exact (if_neg hne).trans (h.unwritten hearlier)
  | repoint dir => exact h.unwritten hrewritten

/-- **OTHERS KEEP THE INVARIANT**, as long as they leave the quarantine name alone. -/
theorem sound_outside {s : System α} (h : Sound op s) {o : Outside}
    (hspares : o.Spares op.aside) : Sound op (step op s (.outside o)) := by
  obtain ⟨tree, phase, ledger⟩ := s
  cases phase with
  | openDirectory => exact Untouched.outside h o
  | inspectPath call => exact Untouched.outside h o
  | moveAside => exact Untouched.outside h o
  | inspectAside call =>
    obtain ⟨inode, hstanding, hopened⟩ := h
    exact ⟨inode, hstanding.outside hspares, hopened⟩
  | delete => exact Identified.outside h hspares
  | syncDeletion => exact Deleted.outside h o
  | restore reason =>
    obtain ⟨inode, hstanding⟩ := h
    exact ⟨inode, hstanding.outside hspares⟩
  | syncRestoration reason =>
    obtain ⟨inode, hrestored⟩ := h
    exact ⟨inode, hrestored.outside o⟩
  | done result =>
    cases result with
    | ok answer => exact Deleted.outside h o
    | error e =>
      rcases h with huntouched | ⟨inode, hstanding⟩ | hdeleted | ⟨inode, hrestored⟩
      · exact Or.inl (huntouched.outside o)
      · exact Or.inr (Or.inl ⟨inode, hstanding.outside hspares⟩)
      · exact Or.inr (Or.inr (Or.inl (hdeleted.outside o)))
      · exact Or.inr (Or.inr (Or.inr ⟨inode, hrestored.outside o⟩))

end Invariant

/-! ## Whole runs -/

section Runs

variable {α : Type} {op : Removal α}

theorem spares_cons {action : Action} {actions : List Action} (h : Spares op (action :: actions)) :
    (∀ o, action = .outside o → o.Spares op.aside) ∧ Spares op actions := by
  refine ⟨?_, ?_⟩
  · rintro o rfl
    exact h o List.mem_cons_self
  · intro o ho
    exact h o (List.mem_cons_of_mem _ ho)

theorem sound_step {s : System α} (h : Sound op s) {action : Action}
    (hspares : ∀ o, action = .outside o → o.Spares op.aside) : Sound op (step op s action) := by
  cases action with
  | operation fault => exact sound_operation h fault
  | outside o => exact sound_outside h (hspares o rfl)

/-- **THE INVARIANT HOLDS ALONG EVERY INTERLEAVING.** -/
theorem sound_run {s : System α} (h : Sound op s) {actions : List Action}
    (hspares : Spares op actions) : Sound op (run (step op) s actions) := by
  induction actions generalizing s with
  | nil => exact h
  | cons action actions ih =>
    obtain ⟨hfirst, hrest⟩ := spares_cons hspares
    exact ih (sound_step h hfirst) hrest

/-- The steps of the others. -/
def outsideOf : Action → Option Outside
  | .operation _ => none
  | .outside o => some o

/-- The tree the others alone would leave. -/
def treeAlone (t : Tree) (actions : List Action) : Tree :=
  run Outside.apply t (actions.filterMap outsideOf)

/-- A call that moves nothing changes nothing. -/
theorem tree_of_unmoved {s : System α} (h : Sound op s) {fault : Option Error}
    (hmoved : (operationStep op s fault).ledger.moved = none) :
    s.ledger.moved = none ∧ (operationStep op s fault).tree = s.tree := by
  -- A phase comes before the move and leaves the tree, or after it and knows what was moved.
  obtain ⟨tree, phase, ledger⟩ := s
  cases phase with
  | openDirectory =>
    cases fault with
    | some e => exact ⟨hmoved, rfl⟩
    | none =>
      simp only [operationStep] at hmoved ⊢
      split at hmoved
      · rename_i heq
        rw [if_pos heq]
        exact ⟨hmoved, rfl⟩
      · rename_i hne
        rw [if_neg hne]
        exact ⟨hmoved, rfl⟩
  | inspectPath call =>
    have h : Untouched _ := h
    refine ⟨h.moved, ?_⟩
    simp only [operationStep]
    split
    · rfl
    · rfl
    · rfl
    · rfl
  | moveAside =>
    have h : Untouched _ := h
    refine ⟨h.moved, ?_⟩
    simp only [operationStep] at hmoved ⊢
    split at hmoved
    · rfl
    · cases hmoved
  | inspectAside call =>
    obtain ⟨inode, hstanding, _⟩ := h
    have hsome : ledger.moved = some inode := hstanding.moved
    simp only [operationStep] at hmoved
    split at hmoved
    · cases hsome.symm.trans hmoved
    · cases hsome.symm.trans hmoved
    · cases hsome.symm.trans hmoved
    · cases hsome.symm.trans hmoved
  | delete =>
    have h : Identified op _ := h
    have hsome : ledger.moved = some op.reviewed.identity := h.moved
    cases fault with
    | some e => cases hsome.symm.trans hmoved
    | none =>
      have hentry := h.entry
      dsimp only at hentry
      simp only [operationStep, hentry] at hmoved
      cases hsome.symm.trans hmoved
  | syncDeletion =>
    cases fault with
    | some e => exact ⟨hmoved, rfl⟩
    | none => exact ⟨hmoved, rfl⟩
  | restore reason =>
    obtain ⟨inode, hstanding⟩ := h
    have hsome : ledger.moved = some inode := hstanding.moved
    simp only [operationStep] at hmoved
    split at hmoved
    · cases hsome.symm.trans hmoved
    · cases hsome.symm.trans hmoved
  | syncRestoration reason =>
    cases fault with
    | some e => exact ⟨hmoved, rfl⟩
    | none => exact ⟨hmoved, rfl⟩
  | done result => exact ⟨hmoved, rfl⟩

/-- **WHERE NOTHING WAS MOVED, THE TREE IS WHAT THE OTHERS MADE OF IT.** -/
theorem tree_of_run {s : System α} (h : Sound op s) {alone : Tree}
    (halone : s.ledger.moved = none → s.tree = alone) {actions : List Action}
    (hspares : Spares op actions) :
    (run (step op) s actions).ledger.moved = none →
      (run (step op) s actions).tree = treeAlone alone actions := by
  induction actions generalizing s alone with
  | nil => exact halone
  | cons action actions ih =>
    obtain ⟨hfirst, hrest⟩ := spares_cons hspares
    cases action with
    | operation fault =>
      refine ih (sound_operation h fault) ?_ hrest
      intro hmoved
      obtain ⟨hbefore, htree⟩ := tree_of_unmoved h hmoved
      exact htree.trans (halone hbefore)
    | outside o =>
      refine ih (sound_outside h (hfirst o rfl)) ?_ hrest
      intro hmoved
      have hbefore : s.ledger.moved = none := (note_kept op s.ledger o).1.symm.trans hmoved
      exact congrArg o.apply (halone hbefore)

/-- **NO CALL LOSES A FILE**: what stands under either name stands under one of them afterwards,
    but for the reviewed file when it is deleted. -/
theorem kept_by_operation {s : System α} (h : Sound op s) (fault : Option Error) {inode : Nat}
    (hstands : s.tree.entries op.path = some inode ∨ s.tree.entries op.aside = some inode) :
    (operationStep op s fault).tree.entries op.path = some inode
      ∨ (operationStep op s fault).tree.entries op.aside = some inode
      ∨ inode = op.reviewed.identity ∧ s.ledger.deleted = none
        ∧ ∃ node, (operationStep op s fault).ledger.deleted = some (inode, node) := by
  have hkept : (operationStep op s fault).tree = s.tree →
      (operationStep op s fault).tree.entries op.path = some inode
        ∨ (operationStep op s fault).tree.entries op.aside = some inode
        ∨ inode = op.reviewed.identity ∧ s.ledger.deleted = none
          ∧ ∃ node, (operationStep op s fault).ledger.deleted = some (inode, node) := by
    intro htree
    rw [htree]
    rcases hstands with hpath | haside
    · exact Or.inl hpath
    · exact Or.inr (Or.inl haside)
  -- Only the two renames and the deletion touch the tree.
  obtain ⟨tree, phase, ledger⟩ := s
  cases phase with
  | openDirectory =>
    refine hkept ?_
    cases fault with
    | some e => rfl
    | none =>
      simp only [operationStep]
      split <;> rfl
  | inspectPath call =>
    refine hkept ?_
    simp only [operationStep]
    split <;> rfl
  | moveAside =>
    simp only [operationStep]
    split
    · rcases hstands with hpath | haside
      · exact Or.inl hpath
      · exact Or.inr (Or.inl haside)
    -- The name was taken, so the entry that stood under it now stands aside.
    · rename_i moved tree' heq
      obtain ⟨hsource, hfree, rfl⟩ := renameNoreplace_ok heq
      rcases hstands with hpath | haside
      · obtain rfl := Option.some.inj (hsource.symm.trans hpath)
        exact Or.inr (Or.inl (Tree.entries_setEntry_self _ _ _))
      · cases hfree.symm.trans haside
  | inspectAside call =>
    refine hkept ?_
    simp only [operationStep]
    split <;> rfl
  | delete =>
    cases fault with
    | some e => exact hkept rfl
    | none =>
      -- What is deleted was identified aside, so an entry under the name stays.
      have h : Identified op _ := h
      have hentry := h.entry
      dsimp only at hentry
      simp only [operationStep, hentry]
      rcases hstands with hpath | haside
      · exact Or.inl ((tree.entries_setEntry_ne none op.path_ne_aside).trans hpath)
      · obtain rfl := Option.some.inj (hentry.symm.trans haside)
        exact Or.inr (Or.inr ⟨rfl, h.deleted, _, rfl⟩)
  | syncDeletion =>
    refine hkept ?_
    cases fault <;> rfl
  | restore reason =>
    simp only [operationStep]
    split
    · rcases hstands with hpath | haside
      · exact Or.inl hpath
      · exact Or.inr (Or.inl haside)
    -- The way back: the name was free, so it was the entry aside.
    · rename_i moved tree' heq
      obtain ⟨hsource, hfree, rfl⟩ := renameNoreplace_ok heq
      rcases hstands with hpath | haside
      · cases hfree.symm.trans hpath
      · obtain rfl := Option.some.inj (hsource.symm.trans haside)
        exact Or.inl (Tree.entries_setEntry_self _ _ _)
  | syncRestoration reason =>
    refine hkept ?_
    cases fault <;> rfl
  | done result => exact hkept rfl

/-- An operation ends, and stands at every point, in one of four ways. -/
theorem failed_of_sound {s : System α} (h : Sound op s) : Failed op s := by
  obtain ⟨tree, phase, ledger⟩ := s
  cases phase with
  | openDirectory => exact Or.inl h
  | inspectPath call => exact Or.inl h
  | moveAside => exact Or.inl h
  | inspectAside call =>
    obtain ⟨inode, hstanding, _⟩ := h
    exact Or.inr (Or.inl ⟨inode, hstanding⟩)
  | delete => exact Or.inr (Or.inl ⟨_, Identified.toStanding h⟩)
  | syncDeletion => exact Or.inr (Or.inr (Or.inl h))
  | restore reason => exact Or.inr (Or.inl h)
  | syncRestoration reason => exact Or.inr (Or.inr (Or.inr h))
  | done result =>
    cases result with
    | ok answer => exact Or.inr (Or.inr (Or.inl h))
    | error e => exact h

variable (op)

/-- What an operation guarantees along a run. -/
structure Safe (start : System α) (actions : List Action) : Prop where
  /-- Only the reviewed file is deleted, after it was identified under the quarantine name, and
      with the reviewed bytes if nobody wrote into it since. -/
  deleted : ∀ inode node, (run (step op) start actions).ledger.deleted = some (inode, node) →
    inode = op.reviewed.identity ∧ (run (step op) start actions).ledger.identified = true
      ∧ ((run (step op) start actions).ledger.rewritten = false →
          node = .regular op.reviewed.rawBytes)
  /-- A file that was moved and not deleted is under the quarantine name, or was put back. -/
  standing : ∀ inode, (run (step op) start actions).ledger.moved = some inode →
    (run (step op) start actions).ledger.deleted = none →
    (run (step op) start actions).tree.entries op.aside = some inode
      ∨ (run (step op) start actions).ledger.restored = true
        ∧ ((run (step op) start actions).ledger.disturbed = false →
            (run (step op) start actions).tree.entries op.path = some inode)
  /-- Where no file was moved, the operation changed nothing. -/
  untouched : (run (step op) start actions).ledger.moved = none →
    (run (step op) start actions).tree = treeAlone start.tree actions
  /-- Without a deletion the operation fails. -/
  failed : ∀ result, (run (step op) start actions).phase = .done result →
    (run (step op) start actions).ledger.deleted = none → ∃ e, result = .error e
  /-- No call of the operation loses a file under either name but by deleting the reviewed one. -/
  kept : ∀ before fault after, actions = before ++ .operation fault :: after → ∀ inode,
    (run (step op) start before).tree.entries op.path = some inode
      ∨ (run (step op) start before).tree.entries op.aside = some inode →
    (run (step op) start (before ++ [.operation fault])).tree.entries op.path = some inode
      ∨ (run (step op) start (before ++ [.operation fault])).tree.entries op.aside = some inode
      ∨ inode = op.reviewed.identity ∧ ∃ node,
          (run (step op) start (before ++ [.operation fault])).ledger.deleted
            = some (inode, node)

/-- The start of an operation. -/
def beginRemoval (tree : Tree) (first : Phase α) : System α := ⟨tree, first, .empty⟩

variable {op}

/-- **AN OPERATION IS SAFE ALONG EVERY INTERLEAVING** that starts before its first change. -/
theorem safe_of_sound {tree : Tree} {first : Phase α} (h : Sound op (beginRemoval tree first))
    {actions : List Action} (hspares : Spares op actions) :
    Safe op (beginRemoval tree first) actions := by
  have hsound := sound_run h hspares
  refine ⟨?_, ?_, ?_, ?_, ?_⟩
  · intro inode node hdeleted
    rcases failed_of_sound hsound with huntouched | ⟨_, hstanding⟩ | hgone | ⟨_, hrestored⟩
    · cases huntouched.deleted.symm.trans hdeleted
    · cases hstanding.deleted.symm.trans hdeleted
    · obtain ⟨node', hnode', hbytes⟩ := hgone.deleted
      obtain ⟨rfl, rfl⟩ := Prod.mk.inj (Option.some.inj (hnode'.symm.trans hdeleted))
      exact ⟨rfl, hgone.identified, hbytes⟩
    · cases hrestored.deleted.symm.trans hdeleted
  · intro inode hmoved hdeleted
    rcases failed_of_sound hsound with huntouched | ⟨_, hstanding⟩ | hgone | ⟨_, hrestored⟩
    · cases huntouched.moved.symm.trans hmoved
    · obtain rfl := Option.some.inj (hstanding.moved.symm.trans hmoved)
      exact Or.inl hstanding.entry
    · obtain ⟨node, hnode, _⟩ := hgone.deleted
      cases hnode.symm.trans hdeleted
    · obtain rfl := Option.some.inj (hrestored.moved.symm.trans hmoved)
      exact Or.inr ⟨hrestored.restored, hrestored.entry⟩
  · exact tree_of_run h (fun _ => rfl) hspares
  · intro result hphase hdeleted
    cases result with
    | error e => exact ⟨e, rfl⟩
    | ok answer =>
      rw [Sound, hphase] at hsound
      obtain ⟨node, hnode, _⟩ := hsound.deleted
      cases hnode.symm.trans hdeleted
  · rintro before fault after rfl inode hstands
    have hbefore : Spares op before := fun o ho => hspares o (List.mem_append_left _ ho)
    rw [run_append]
    rcases kept_by_operation (sound_run h hbefore) fault hstands with hpath | haside | hgone
    · exact Or.inl hpath
    · exact Or.inr (Or.inl haside)
    · exact Or.inr (Or.inr ⟨hgone.1, hgone.2.2⟩)

end Runs

/-! ## The two operations -/

/-- The first call of `remove_confirmed_trust_store`: with nothing confirmed there is none. -/
def removeConfirmedTrustStore : Option RegularFileSnapshot → Phase Bool
  | none => .done (.ok false)
  | some _ => .inspectPath .lookup

/-- An operation that is done takes no more calls. -/
theorem run_done {α : Type} (op : Removal α) {s : System α} {result : Except Error α}
    (h : s.phase = .done result) (actions : List Action) :
    (run (step op) s actions).phase = .done result
      ∧ (run (step op) s actions).tree = treeAlone s.tree actions := by
  induction actions generalizing s with
  | nil => exact ⟨h, rfl⟩
  | cons action actions ih =>
    cases action with
    | operation fault =>
      have hstep : step op s (.operation fault) = s := by
        obtain ⟨tree, phase, ledger⟩ := s
        obtain rfl : phase = .done result := h
        rfl
      rw [run_cons, hstep]
      exact ih h
    | outside o => exact ih h

/-- **REVIEWED REMOVALS ARE SAFE**: the removal of a member document and the reset of a trust
    store, along every interleaving with others that leave the quarantine name alone.  A reset
    with nothing confirmed touches nothing and answers so. -/
theorem removal_safe :
    (∀ dir memberHandle uuid reviewed display tree actions,
        Spares (memberRemoval dir memberHandle uuid reviewed display) actions →
        Safe (memberRemoval dir memberHandle uuid reviewed display)
          (beginRemoval tree .openDirectory) actions)
    ∧ (∀ dir fileName uuid confirmed display path tree actions,
        Spares (trustStoreRemoval dir fileName uuid confirmed display path) actions →
        Safe (trustStoreRemoval dir fileName uuid confirmed display path)
          (beginRemoval tree (removeConfirmedTrustStore (some confirmed))) actions)
    ∧ ∀ op tree actions,
        (run (step op) (beginRemoval tree (removeConfirmedTrustStore none)) actions).phase
            = .done (.ok false)
          ∧ (run (step op) (beginRemoval tree (removeConfirmedTrustStore none)) actions).tree
            = treeAlone tree actions := by
  refine ⟨?_, ?_, ?_⟩
  · intro dir memberHandle uuid reviewed display tree actions hspares
    have hstart : Sound (memberRemoval dir memberHandle uuid reviewed display)
        (beginRemoval tree .openDirectory) := Untouched.mk rfl rfl
    exact safe_of_sound hstart hspares
  · intro dir fileName uuid confirmed display path tree actions hspares
    have hstart : Sound (trustStoreRemoval dir fileName uuid confirmed display path)
        (beginRemoval tree (.inspectPath .lookup)) := Untouched.mk rfl rfl
    exact safe_of_sound hstart hspares
  · intro op tree actions
    exact run_done op rfl actions

/-- Alice's document, reviewed. -/
def aliceRemoval : Removal Unit :=
  memberRemoval 0 "alice" "uuid" ⟨7, [1]⟩ id

def aliceTree : Tree where
  entries := fun place => if place = aliceRemoval.path then some 7 else none
  nodes := fun _ => .regular [1]
  statusDir := 0

/-- Every call up to the deletion. -/
def aliceCalls : List Action := List.replicate 10 (.operation none)

theorem spares_replicate {α : Type} (op : Removal α) (n : Nat) :
    Spares op (List.replicate n (.operation none)) := by
  intro o ho
  cases List.eq_of_mem_replicate ho

/-- Undisturbed, alice's document is deleted as it was reviewed. -/
theorem removal_safe_toy :
    Safe aliceRemoval (beginRemoval aliceTree .openDirectory)
        (aliceCalls ++ [.operation none])
      ∧ (run (step aliceRemoval) (beginRemoval aliceTree .openDirectory)
          (aliceCalls ++ [.operation none])).ledger.deleted = some (7, .regular [1]) :=
  ⟨removal_safe.1 0 "alice" "uuid" ⟨7, [1]⟩ id aliceTree _ (spares_replicate aliceRemoval 11),
    by decide +kernel⟩

/-- **THE LAST CHECK IS NOT THE DELETION**: someone who holds the file open and writes into it
    after it was identified leaves the quarantine name alone, and what is deleted is not what was
    reviewed. -/
theorem rewritten_in_place :
    ¬ ∀ dir memberHandle uuid reviewed display tree actions,
        Spares (memberRemoval dir memberHandle uuid reviewed display) actions →
        ∀ inode node,
          (run (step (memberRemoval dir memberHandle uuid reviewed display))
            (beginRemoval tree .openDirectory) actions).ledger.deleted = some (inode, node) →
          inode = reviewed.identity ∧ node = .regular reviewed.rawBytes := by
  intro h
  have hspares : Spares aliceRemoval
      (aliceCalls ++ [.outside (.write 7 (.regular [2])), .operation none]) := by
    intro o ho
    rcases List.mem_append.mp ho with ho | ho
    · exact spares_replicate aliceRemoval 10 o ho
    · rcases List.mem_cons.mp ho with ho | ho
      · obtain rfl := Action.outside.inj ho
        trivial
      · cases List.mem_singleton.mp ho
  have hdeleted : (run (step aliceRemoval) (beginRemoval aliceTree .openDirectory)
      (aliceCalls ++ [.outside (.write 7 (.regular [2])), .operation none])).ledger.deleted
      = some (7, .regular [2]) := by decide +kernel
  obtain ⟨_, hnode⟩ := h 0 "alice" "uuid" ⟨7, [1]⟩ id aliceTree _ hspares 7 _ hdeleted
  exact absurd hnode (by decide)

end RemovalSafety

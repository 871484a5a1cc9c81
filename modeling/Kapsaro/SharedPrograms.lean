import Kapsaro.StepPrograms

/-!
# Shared programs — a step program among other writers

A program whose state others change too: before each of its steps they may do anything to the state,
and the step may be made to fail.

* **`Moment`** — what happens right before a step.
* **`Visit`** — the state a step found, and the state it left.
* **`among`** — the run of a program under a list of moments; it is stopped where the list ends.
* **`Sees`** — the visits and the answer a program admits, whatever the others do;
  **`sees_iff_among`** — these are the visits and the answers of its runs.
* **`sees_bind_ok`**, **`sees_read`** — the visits of programs put together.
* **`Leaves`** — no step of a program changes a part of the state.
* **`Passes`**, **`Turns`** — a program that nobody disturbs, and that changes nothing, or changes
  the state in one step.
-/

namespace StepPrograms

variable {σ ε α β : Type}

/-! ## Runs -/

/-- What happens before a step: others change the state, and the step may be made to fail. -/
structure Moment (σ ε : Type) where
  outside : σ → σ
  fault : Option ε

/-- A step of a program: what it found and what it left. -/
structure Visit (σ : Type) where
  found : σ
  left : σ

/-- A visit that changed nothing. -/
def Visit.Quiet (v : Visit σ) : Prop :=
  v.left = v.found

/-- What a run came to. -/
structure Outcome (σ ε α : Type) where
  visits : List (Visit σ)
  state : σ
  /-- none, if the program was stopped -/
  answer : Option (Except ε α)

/-- One more visit. -/
def Outcome.after (v : Visit σ) (o : Outcome σ ε α) : Outcome σ ε α :=
  { o with visits := v :: o.visits }

/-- A call at a moment: its result, and the state it leaves. -/
def Moment.attempt (m : Moment σ ε) (f : σ → Except ε σ) (s : σ) : Except ε Unit × σ :=
  match m.fault, f s with
  | some e, _ => (.error e, s)
  | none, .error e => (.error e, s)
  | none, .ok t => (.ok (), t)

namespace Steps

/-- The run of a program among others. -/
def among : Steps σ ε α → List (Moment σ ε) → σ → Outcome σ ε α
  | done r, _, s => ⟨[], s, some r⟩
  | look _, [], s => ⟨[], s, none⟩
  | look next, m :: moments, s =>
    (among (next (m.outside s)) moments (m.outside s)).after ⟨m.outside s, m.outside s⟩
  | call _ _, [], s => ⟨[], s, none⟩
  | call f next, m :: moments, s =>
    let result := m.attempt f (m.outside s)
    (among (next result.1) moments result.2).after ⟨m.outside s, result.2⟩

/-- An answer read off the state; the reading may fail. -/
def read (g : σ → Except ε α) : Steps σ ε α := do
  change .ok
  observe g

/-- What is fallible and needs no state. -/
def lift (r : Except ε α) : Steps σ ε α :=
  done r

/-! ## What a program sees -/

/-- The visits and the answer a program admits. -/
def Sees : Steps σ ε α → List (Visit σ) → Option (Except ε α) → Prop
  | done r, visits, answer => visits = [] ∧ answer = some r
  | look _, [], answer => answer = none
  | look next, v :: visits, answer => v.Quiet ∧ Sees (next v.found) visits answer
  | call _ _, [], answer => answer = none
  | call f next, v :: visits, answer =>
    (v.Quiet ∧ ∃ e, Sees (next (.error e)) visits answer)
      ∨ (f v.found = .ok v.left ∧ Sees (next (.ok ())) visits answer)

theorem sees_among (p : Steps σ ε α) (moments : List (Moment σ ε)) (s : σ) :
    Sees p (p.among moments s).visits (p.among moments s).answer := by
  induction p generalizing moments s with
  | done r => exact ⟨rfl, rfl⟩
  | look next ih =>
    cases moments with
    | nil => exact rfl
    | cons m moments => exact ⟨rfl, ih _ moments _⟩
  | call f next ih =>
    cases moments with
    | nil => exact rfl
    | cons m moments =>
      rw [among, Moment.attempt]
      cases m.fault with
      | some e => exact Or.inl ⟨rfl, e, ih _ moments _⟩
      | none =>
        cases hf : f (m.outside s) with
        | error e => exact Or.inl ⟨rfl, e, ih _ moments _⟩
        | ok t => exact Or.inr ⟨hf, ih _ moments _⟩

/-- **WHATEVER A PROGRAM ADMITS HAPPENS** in a run: others can bring about every state. -/
theorem exists_among {p : Steps σ ε α} {visits : List (Visit σ)} {answer : Option (Except ε α)}
    (h : Sees p visits answer) (s : σ) :
    ∃ moments, (p.among moments s).visits = visits ∧ (p.among moments s).answer = answer := by
  induction p generalizing visits s with
  | done r => exact ⟨[], h.1.symm, h.2.symm⟩
  | look next ih =>
    cases visits with
    | nil => exact ⟨[], rfl, Eq.symm h⟩
    | cons v visits =>
      obtain ⟨hquiet, hrest⟩ := h
      obtain ⟨moments, hvisits, hanswer⟩ := ih _ hrest v.found
      refine ⟨⟨fun _ => v.found, none⟩ :: moments, ?_, hanswer⟩
      rw [among, Outcome.after, hvisits]
      exact congrArg (fun left => Visit.mk v.found left :: visits) hquiet.symm
  | call f next ih =>
    cases visits with
    | nil => exact ⟨[], rfl, Eq.symm h⟩
    | cons v visits =>
      rcases h with ⟨hquiet, e, hrest⟩ | ⟨hf, hrest⟩
      · obtain ⟨moments, hvisits, hanswer⟩ := ih _ hrest v.found
        refine ⟨⟨fun _ => v.found, some e⟩ :: moments, ?_, hanswer⟩
        rw [among, Moment.attempt, Outcome.after, hvisits]
        exact congrArg (fun left => Visit.mk v.found left :: visits) hquiet.symm
      · obtain ⟨moments, hvisits, hanswer⟩ := ih _ hrest v.left
        refine ⟨⟨fun _ => v.found, none⟩ :: moments, ?_, ?_⟩
        · rw [among, Moment.attempt, hf, Outcome.after, hvisits]
        · rw [among, Moment.attempt, hf]
          exact hanswer

/-- **WHAT A PROGRAM ADMITS ARE ITS RUNS**. -/
theorem sees_iff_among {p : Steps σ ε α} {visits : List (Visit σ)} {answer : Option (Except ε α)}
    (s : σ) :
    Sees p visits answer
      ↔ ∃ moments, (p.among moments s).visits = visits ∧ (p.among moments s).answer = answer := by
  refine ⟨fun h => exists_among h s, ?_⟩
  rintro ⟨moments, rfl, rfl⟩
  exact sees_among p moments s

/-! ## Programs put together -/

/-- The visits of a program that goes on from an answer: those before it and those after it, unless
    it was stopped before. -/
theorem sees_handle {p : Steps σ ε α} {k : Except ε α → Steps σ ε β} {visits : List (Visit σ)}
    {answer : Option (Except ε β)} (h : Sees (p.handle k) visits answer) :
    (Sees p visits none ∧ answer = none)
      ∨ ∃ r before after, visits = before ++ after ∧ Sees p before (some r)
        ∧ Sees (k r) after answer := by
  induction p generalizing visits with
  | done r => exact Or.inr ⟨r, [], visits, rfl, ⟨rfl, rfl⟩, h⟩
  | look next ih =>
    cases visits with
    | nil => exact Or.inl ⟨rfl, h⟩
    | cons v visits =>
      obtain ⟨hquiet, hrest⟩ := h
      rcases ih _ hrest with ⟨hstopped, hnone⟩ | ⟨r, before, after, rfl, hbefore, hafter⟩
      · exact Or.inl ⟨⟨hquiet, hstopped⟩, hnone⟩
      · exact Or.inr ⟨r, v :: before, after, rfl, ⟨hquiet, hbefore⟩, hafter⟩
  | call f next ih =>
    cases visits with
    | nil => exact Or.inl ⟨rfl, h⟩
    | cons v visits =>
      rcases h with ⟨hquiet, e, hrest⟩ | ⟨hf, hrest⟩
      · rcases ih _ hrest with ⟨hstopped, hnone⟩ | ⟨r, before, after, rfl, hbefore, hafter⟩
        · exact Or.inl ⟨Or.inl ⟨hquiet, e, hstopped⟩, hnone⟩
        · exact Or.inr ⟨r, v :: before, after, rfl, Or.inl ⟨hquiet, e, hbefore⟩, hafter⟩
      · rcases ih _ hrest with ⟨hstopped, hnone⟩ | ⟨r, before, after, rfl, hbefore, hafter⟩
        · exact Or.inl ⟨Or.inr ⟨hf, hstopped⟩, hnone⟩
        · exact Or.inr ⟨r, v :: before, after, rfl, Or.inr ⟨hf, hbefore⟩, hafter⟩

/-- And the other way round. -/
theorem sees_append {p : Steps σ ε α} {k : Except ε α → Steps σ ε β} {before after : List (Visit σ)}
    {r : Except ε α} {answer : Option (Except ε β)} (hp : Sees p before (some r))
    (hk : Sees (k r) after answer) : Sees (p.handle k) (before ++ after) answer := by
  induction p generalizing before with
  | done r' =>
    obtain ⟨rfl, hr⟩ := hp
    obtain rfl := Option.some.inj hr
    exact hk
  | look next ih =>
    cases before with
    | nil => cases hp
    | cons v before => exact ⟨hp.1, ih _ hp.2⟩
  | call f next ih =>
    cases before with
    | nil => cases hp
    | cons v before =>
      rcases hp with ⟨hquiet, e, hrest⟩ | ⟨hf, hrest⟩
      · exact Or.inl ⟨hquiet, e, ih _ hrest⟩
      · exact Or.inr ⟨hf, ih _ hrest⟩

/-- **SEQUENCE**: a sequence that is not stopped and succeeds went through both programs. -/
theorem sees_bind_ok {p : Steps σ ε α} {k : α → Steps σ ε β} {visits : List (Visit σ)} {b : β} :
    Sees (p >>= k) visits (some (.ok b)) ↔ ∃ a before after, visits = before ++ after
      ∧ Sees p before (some (.ok a)) ∧ Sees (k a) after (some (.ok b)) := by
  constructor
  · intro h
    rcases sees_handle h with ⟨_, hnone⟩ | ⟨r, before, after, hvisits, hbefore, hafter⟩
    · cases hnone
    · cases r with
      | error e =>
        obtain ⟨_, herror⟩ := hafter
        cases Option.some.inj herror
      | ok a => exact ⟨a, before, after, hvisits, hbefore, hafter⟩
  · rintro ⟨a, before, after, rfl, hbefore, hafter⟩
    exact sees_append hbefore hafter

/-- A reading that succeeded: the last of its two steps saw what was read. -/
theorem sees_read {g : σ → Except ε α} {visits : List (Visit σ)} {a : α} :
    Sees (read g) visits (some (.ok a)) ↔ ∃ opened v, visits = [opened, v] ∧ opened.Quiet
      ∧ v.Quiet ∧ g v.found = .ok a := by
  constructor
  · intro h
    obtain ⟨_, before, after, rfl, hopen, hlook⟩ := sees_bind_ok.mp h
    cases before with
    | nil => cases hopen
    | cons opened before =>
      rcases hopen with ⟨_, e, _, herror⟩ | ⟨hok, rfl, _⟩
      · cases Option.some.inj herror
      · cases after with
        | nil => cases hlook
        | cons v after =>
          obtain ⟨hquiet, rfl, hanswer⟩ := hlook
          exact ⟨opened, v, rfl, (Except.ok.inj hok).symm, hquiet, (Option.some.inj hanswer).symm⟩
  · rintro ⟨opened, v, rfl, hopened, hquiet, hg⟩
    refine sees_bind_ok.mpr ⟨(), [opened], [v], rfl, Or.inr ⟨?_, rfl, rfl⟩, hquiet, rfl, ?_⟩
    · exact congrArg Except.ok (Eq.symm hopened)
    · rw [hg]

/-- A call that went through. -/
theorem sees_change {f : σ → Except ε σ} {visits : List (Visit σ)} :
    Sees (change f) visits (some (.ok ())) ↔ ∃ v, visits = [v] ∧ f v.found = .ok v.left := by
  constructor
  · intro h
    cases visits with
    | nil => cases h
    | cons v visits =>
      rcases h with ⟨_, e, _, herror⟩ | ⟨hf, rfl, _⟩
      · cases Option.some.inj herror
      · exact ⟨v, rfl, hf⟩
  · rintro ⟨v, rfl, hf⟩
    exact Or.inr ⟨hf, rfl, rfl⟩

/-! ## What a program leaves alone -/

/-- No step of a program changes a part of the state. -/
def Leaves (part : σ → β) (p : Steps σ ε α) : Prop :=
  ∀ visits answer, Sees p visits answer → ∀ v ∈ visits, part v.left = part v.found

variable {γ : Type} {part : σ → γ}

theorem Leaves.done (r : Except ε α) : Leaves part (done r : Steps σ ε α) := by
  rintro visits answer ⟨rfl, _⟩ v hv
  cases hv

theorem Leaves.handle {p : Steps σ ε α} {k : Except ε α → Steps σ ε β} (hp : Leaves part p)
    (hk : ∀ r, Leaves part (k r)) : Leaves part (p.handle k) := by
  intro visits answer h v hv
  rcases sees_handle h with ⟨hstopped, _⟩ | ⟨r, before, after, rfl, hbefore, hafter⟩
  · exact hp visits none hstopped v hv
  · rcases List.mem_append.mp hv with hv | hv
    · exact hp before _ hbefore v hv
    · exact hk r after _ hafter v hv

theorem Leaves.bind {p : Steps σ ε α} {k : α → Steps σ ε β} (hp : Leaves part p)
    (hk : ∀ a, Leaves part (k a)) : Leaves part (p >>= k) := by
  refine Leaves.handle hp fun r => ?_
  cases r with
  | ok a => exact hk a
  | error e => exact Leaves.done (.error e)

theorem Leaves.change {f : σ → Except ε σ} (h : ∀ s t, f s = .ok t → part t = part s) :
    Leaves part (change f) := by
  intro visits answer hsees v hv
  cases visits with
  | nil => cases hv
  | cons w visits =>
    rcases hsees with ⟨hquiet, e, rfl, _⟩ | ⟨hf, rfl, _⟩
    · obtain rfl := List.mem_singleton.mp hv
      exact congrArg part hquiet
    · obtain rfl := List.mem_singleton.mp hv
      exact h _ _ hf

theorem Leaves.observe (g : σ → Except ε α) : Leaves part (observe g) := by
  intro visits answer hsees v hv
  cases visits with
  | nil => cases hv
  | cons w visits =>
    obtain ⟨hquiet, rfl, _⟩ := hsees
    obtain rfl := List.mem_singleton.mp hv
    exact congrArg part hquiet

theorem Leaves.read (g : σ → Except ε α) : Leaves part (read g) :=
  Leaves.bind (Leaves.change fun _ _ h => by rw [Except.ok.inj h]) fun _ => Leaves.observe g

theorem Leaves.lift (r : Except ε α) : Leaves part (lift r : Steps σ ε α) :=
  Leaves.done r

/-! ## Programs nobody disturbs -/

/-- A program that finds the same state at each of its steps, leaves it as it is, and succeeds. -/
def Passes (p : Steps σ ε α) (s : σ) (a : α) : Prop :=
  ∃ visits, (∀ v ∈ visits, v = Visit.mk s s) ∧ Sees p visits (some (.ok a))

/-- One step of a program takes the state to another one, the others leave it, and it succeeds. -/
def Turns (p : Steps σ ε α) (s t : σ) (a : α) : Prop :=
  ∃ before after, (∀ v ∈ before, v = Visit.mk s s) ∧ (∀ v ∈ after, v = Visit.mk t t)
    ∧ Sees p (before ++ Visit.mk s t :: after) (some (.ok a))

theorem Passes.lift {r : Except ε α} {s : σ} {a : α} (h : r = .ok a) : Passes (lift r) s a :=
  ⟨[], fun _ hv => (by cases hv), rfl, congrArg some h.symm⟩

theorem Passes.pure (a : α) (s : σ) : Passes (pure a : Steps σ ε α) s a :=
  Passes.lift rfl

theorem Passes.change {f : σ → Except ε σ} {s : σ} (h : f s = .ok s) : Passes (change f) s () :=
  ⟨[⟨s, s⟩], fun _ hv => List.mem_singleton.mp hv, sees_change.mpr ⟨_, rfl, h⟩⟩

theorem Passes.read {g : σ → Except ε α} {s : σ} {a : α} (h : g s = .ok a) :
    Passes (read g) s a := by
  refine ⟨[⟨s, s⟩, ⟨s, s⟩], fun v hv => ?_, sees_read.mpr ⟨_, _, rfl, rfl, rfl, h⟩⟩
  rcases List.mem_pair.mp hv with rfl | rfl <;> rfl

theorem Passes.bind {p : Steps σ ε α} {k : α → Steps σ ε β} {s : σ} {a : α} {b : β}
    (hp : Passes p s a) (hk : Passes (k a) s b) : Passes (p >>= k) s b := by
  obtain ⟨before, hbefore, hp⟩ := hp
  obtain ⟨after, hafter, hk⟩ := hk
  refine ⟨before ++ after, fun v hv => ?_, sees_bind_ok.mpr ⟨a, before, after, rfl, hp, hk⟩⟩
  rcases List.mem_append.mp hv with hv | hv
  · exact hbefore v hv
  · exact hafter v hv

/-- **THE STEP THAT CHANGES THE STATE** comes later on. -/
theorem Passes.turns {p : Steps σ ε α} {k : α → Steps σ ε β} {s t : σ} {a : α} {b : β}
    (hp : Passes p s a) (hk : Turns (k a) s t b) : Turns (p >>= k) s t b := by
  obtain ⟨earlier, hearlier, hp⟩ := hp
  obtain ⟨before, after, hbefore, hafter, hk⟩ := hk
  refine ⟨earlier ++ before, after, fun v hv => ?_, hafter, ?_⟩
  · rcases List.mem_append.mp hv with hv | hv
    · exact hearlier v hv
    · exact hbefore v hv
  · rw [List.append_assoc]
    exact sees_bind_ok.mpr ⟨a, earlier, _, rfl, hp, hk⟩

theorem Turns.change {f : σ → Except ε σ} {s t : σ} (h : f s = .ok t) : Turns (change f) s t () :=
  ⟨[], [], fun _ hv => (by cases hv), fun _ hv => (by cases hv), sees_change.mpr ⟨_, rfl, h⟩⟩

/-- **THE STEP THAT CHANGES THE STATE** came before. -/
theorem Turns.bind {p : Steps σ ε α} {k : α → Steps σ ε β} {s t : σ} {a : α} {b : β}
    (hp : Turns p s t a) (hk : Passes (k a) t b) : Turns (p >>= k) s t b := by
  obtain ⟨before, after, hbefore, hafter, hp⟩ := hp
  obtain ⟨later, hlater, hk⟩ := hk
  refine ⟨before, after ++ later, hbefore, fun v hv => ?_, ?_⟩
  · rcases List.mem_append.mp hv with hv | hv
    · exact hafter v hv
    · exact hlater v hv
  · exact sees_bind_ok.mpr ⟨a, before ++ Visit.mk s t :: after, later,
      by rw [List.append_assoc, List.cons_append], hp, hk⟩

end Steps

end StepPrograms

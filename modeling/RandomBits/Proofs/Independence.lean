import Mathlib
import RandomBits.Entropy.Playback
import RandomBits.Proofs.Coupling

/-! # Generators of one builder are independent

Where sources share no state (`Isolated`) and nobody draws auxiliary randomness, what a generator
answers depends on few steps of a session: the changes of the settings before its build, the build,
and its own uses (`Session.concerning`). All other steps can be left out, moved or changed without
its answers being affected (`Session.generators_independent`).
-/

namespace RandomBits

/-- Sources share no state: what a fetch yields, and the source after it, depends on the source
alone, and the sources that are handed out are the same whatever the environment was used for. -/
structure Isolated {σ ω : Type} [SeedProvider ω σ] (yields : ω → ℕ → Except EntropyFailure σ)
    (next : σ → Except EntropyFailure Bytes × σ) : Prop where
  fetch (source : σ) (w : ω) : (SeedSource.fetch source w).1 = (next source).1 ∧
    (SeedSource.fetch source w).2.1 = (next source).2 ∧
    yields (SeedSource.fetch source w).2.2 = yields w
  get (w : ω) (bits : ℕ) : (SeedProvider.get w bits).1 = yields w bits ∧
    yields (SeedProvider.get w bits).2 = yields w

/-- What was asked of a recording does not change what is handed out. -/
theorem Playback.get_congr {w x : Playback} (recording : x.recording = w.recording)
    (failOn : x.failOn = w.failOn) (refusal : x.refusal = w.refusal) :
    (fun bits => (x.get bits).1) = fun bits => (w.get bits).1 := by
  funext bits
  simp only [get, recording, failOn, refusal]
  cases w.refusal <;> rfl

/-- Recordings are played back to every source from the start. -/
theorem Playback.isolated :
    Isolated (fun (w : Playback) bits => (w.get bits).1)
      (fun p : Player => (p.next, { p with position := p.position + 1 })) where
  fetch _ _ := ⟨rfl, rfl, get_congr rfl rfl rfl⟩
  get w bits := by
    have kept : (w.get bits).2 = { w with requested := w.requested ++ [bits] } := by
      rw [get]
      cases w.refusal <;> rfl
    refine ⟨rfl, ?_⟩
    change (fun bits' => ((w.get bits).2.get bits').1) = _
    rw [kept]
    exact get_congr rfl rfl rfl

section

variable {σ ω : Type} [SeedProvider ω σ] [Randomness ω] {yields : ω → ℕ → Except EntropyFailure σ}
  {next : σ → Except EntropyFailure Bytes × σ}

/-- Environments that hand out the same isolated sources answer the same. -/
theorem Isolated.coupling (isolated : Isolated yields next) (given : ℕ → Except EntropyFailure σ) :
    Coupling View.full false Eq fun w x : ω => yields w = given ∧ yields x = given where
  fetch {source other w x} related coupled := by
    obtain ⟨block, rest, kept⟩ := isolated.fetch source w
    obtain ⟨block', rest', kept'⟩ := isolated.fetch other x
    subst related
    rw [block, rest, block', rest', kept, kept']
    refine ⟨?_, rfl, coupled⟩
    cases (next source).1 with
    | ok bytes => exact .ok rfl
    | error cause => exact .error cause
  draw available := absurd available Bool.false_ne_true
  get {w x} coupled bits := by
    obtain ⟨handed, kept⟩ := isolated.get w bits
    obtain ⟨handed', kept'⟩ := isolated.get x bits
    rw [handed, handed', kept, kept', coupled.1, coupled.2]
    refine ⟨?_, rfl, rfl⟩
    cases given bits with
    | ok source => exact .ok rfl
    | error cause => exact .error cause

end

section

variable {σ : Type} {m n : Seeded σ} {g h : Generator (Seeded σ)}

theorem Seeded.Alike.eq (alike : Seeded.Alike CoreView.full Eq m n) : n = m := by
  obtain ⟨core, source, strength, counter, interval⟩ := alike
  cases m
  cases n
  cases core
  cases source
  cases strength
  cases counter
  cases interval
  rfl

theorem Seeded.Alike.refl (m : Seeded σ) : Seeded.Alike CoreView.full Eq m m :=
  ⟨rfl, rfl, rfl, rfl, rfl⟩

theorem Generator.Alike.eq (alike : Generator.Alike false (Seeded.Alike CoreView.full Eq) g h) :
    h = g := by
  obtain ⟨mechanism, -, auxiliary, resistant, faulted⟩ := alike
  have mechanism := mechanism.eq
  cases g
  cases h
  cases mechanism
  cases auxiliary
  cases resistant
  cases faulted
  rfl

theorem Generator.Alike.refl (alone : g.auxiliary = false) :
    Generator.Alike false (Seeded.Alike CoreView.full Eq) g g :=
  ⟨.refl g.mechanism, alone, rfl, rfl, rfl⟩

theorem Config.Alike.refl (c : Config) : Config.Alike View.full c c := by
  refine ⟨?_, rfl, rfl, rfl⟩
  cases c.personalization with
  | none => exact .none
  | some string => exact .some rfl

end

namespace Step

/-- The slot of the generator that a step builds or uses, given the number of builds before it. -/
def owner? (built : ℕ) : Step → Option ℕ
  | build .. => some built
  | use slot _ => some slot
  | configure _ | config | describe | requested => none

def isBuild : Step → Bool
  | build .. => true
  | _ => false

def moved (place : ℕ → ℕ) : Step → Step
  | use slot operation => use (place slot) operation
  | step => step

/-- Whether a step is for no generator or for the one in a slot. -/
def spares (slot built : ℕ) (step : Step) : Bool := (step.owner? built).all (· = slot)

/-- Whether the answers of the generator in a slot depend on a step: a change of the settings before
its build, its build, or one of its uses. -/
def concerns (slot built : ℕ) : Step → Bool
  | configure _ => built ≤ slot
  | step => step.owner? built = some slot

private theorem concerns_of_owner? {slot built owner : ℕ} {step : Step}
    (owned : step.owner? built = some owner) :
    step.concerns slot built = decide (owner = slot) := by
  cases step with
  | configure _ | config | describe | requested => cases owned
  | build _ _ _ | use _ _ => simp only [concerns, owned, Option.some.injEq]

end Step

namespace Session

def builds (steps : List Step) : ℕ := steps.countP Step.isBuild

/-- The steps that are kept, given the number of builds before them. They keep one generator at most,
which then has the first slot. -/
def select (keep : ℕ → Step → Bool) : (built : ℕ) → List Step → List Step
  | _, [] => []
  | built, step :: rest =>
    let later := select keep (if step.isBuild then built + 1 else built) rest
    if keep built step then step.moved (fun _ => 0) :: later else later

/-- Steps without those of all generators but the one in a slot. -/
def isolate (slot : ℕ) (steps : List Step) : List Step := select (Step.spares slot) 0 steps

private theorem select_append (keep : ℕ → Step → Bool) (built : ℕ) (first second : List Step) :
    select keep built (first ++ second) =
      select keep built first ++ select keep (built + builds first) second := by
  induction first generalizing built with
  | nil => rfl
  | cons step rest ih =>
    have count : built + builds (step :: rest) =
        (if step.isBuild then built + 1 else built) + builds rest := by
      rw [builds, List.countP_cons, builds]
      split <;> omega
    rw [List.cons_append, count]
    simp only [select, ih]
    split
    · rfl
    · rfl

/-- Nothing that a generator depends on is taken away with the other generators. -/
private theorem concerns_spares (slot built : ℕ) (steps : List Step) :
    select (Step.concerns 0) (if built ≤ slot then 0 else 1)
        (select (Step.spares slot) built steps) =
      select (Step.concerns slot) built steps := by
  induction steps generalizing built with
  | nil => rfl
  | cons step rest ih =>
    have later := ih built
    cases step with
    | configure setting =>
      have passed : (if built ≤ slot then 0 else 1) ≤ 0 ↔ built ≤ slot := by split <;> omega
      simp [select, Step.spares, Step.concerns, Step.owner?, Step.moved, Step.isBuild, passed, later]
    | build order nonce predictionResistant =>
      have next := ih (built + 1)
      by_cases same : built = slot
      · rw [if_neg (by omega)] at next
        simp [select, Step.spares, Step.concerns, Step.owner?, Step.moved, Step.isBuild, same] at next ⊢
        exact next
      · have passed : built + 1 ≤ slot ↔ built ≤ slot := by omega
        simp only [passed] at next
        simp [select, Step.spares, Step.concerns, Step.owner?, Step.isBuild, same, next]
    | use owner operation =>
      by_cases same : owner = slot
      · simp [select, Step.spares, Step.concerns, Step.owner?, Step.moved, Step.isBuild, same, later]
      · simp [select, Step.spares, Step.concerns, Step.owner?, Step.isBuild, same, later]
    | config | describe | requested =>
      simp [select, Step.spares, Step.concerns, Step.owner?, Step.moved, Step.isBuild, later]

/-- Nothing that a generator depends on changes if generators trade slots, as long as no builds are
made in between. -/
private theorem concerns_moved {place : ℕ → ℕ} (injective : place.Injective) (slot built : ℕ)
    (steps : List Step)
    (passed : ∀ count, built ≤ count → count ≤ built + builds steps →
      (count ≤ place slot ↔ count ≤ slot)) :
    select (Step.concerns (place slot)) built (steps.map (Step.moved place)) =
      select (Step.concerns slot) built steps := by
  induction steps generalizing built with
  | nil => rfl
  | cons step rest ih =>
    have now := passed built le_rfl (Nat.le_add_right _ _)
    cases step with
    | configure setting =>
      have later := ih built fun count first last => passed count first last
      simp [select, Step.moved, Step.concerns, Step.isBuild, later, now]
    | build order nonce predictionResistant =>
      have one : builds (.build order nonce predictionResistant :: rest) = builds rest + 1 := by
        simp only [builds, List.countP_cons, Step.isBuild, if_true]
      rw [one] at passed
      have next := passed (built + 1) (by omega) (by omega)
      have same : built = place slot ↔ built = slot := by omega
      have later := ih (built + 1) fun count first last =>
        passed count (by omega) (by omega)
      simp [select, Step.moved, Step.concerns, Step.owner?, Step.isBuild, later, same]
    | use owner operation =>
      have later := ih built fun count first last => passed count first last
      simp [select, Step.moved, Step.concerns, Step.owner?, Step.isBuild, later, injective.eq_iff]
    | config | describe | requested =>
      have later := ih built fun count first last => passed count first last
      simpa [select, Step.moved, Step.concerns, Step.owner?, Step.isBuild] using later

private theorem select_concerns_cons {slot built owner : ℕ} {step : Step} (rest : List Step)
    (owned : step.owner? built = some owner) :
    select (Step.concerns slot) built (step :: rest) =
      if owner = slot then
        step.moved (fun _ => 0) ::
          select (Step.concerns slot) (if step.isBuild then built + 1 else built) rest
      else select (Step.concerns slot) (if step.isBuild then built + 1 else built) rest := by
  simp only [select, Step.concerns_of_owner? owned, decide_eq_true_eq]

/-- At most one of two items that exclude each other is in front of a list, in whatever order they are
put there. -/
private theorem ite_cons_comm {α : Type} {p q : Prop} [Decidable p] [Decidable q] (exclusive : p → ¬ q)
    (a b : α) (rest : List α) :
    (if p then a :: (if q then b :: rest else rest) else if q then b :: rest else rest) =
      if q then b :: (if p then a :: rest else rest) else if p then a :: rest else rest := by
  by_cases first : p
  · rw [if_pos first, if_neg (exclusive first), if_neg (exclusive first), if_pos first]
  · rw [if_neg first, if_neg first]

/-- Nothing that a generator depends on changes if steps of different generators trade places. -/
theorem concerns_swap {slot built i j : ℕ} {first second : Step} (after : List Step)
    (ofFirst : first.owner? built = some i) (ofSecond : second.owner? built = some j)
    (apart : i ≠ j) :
    select (Step.concerns slot) built (first :: second :: after) =
      select (Step.concerns slot) built (second :: first :: after) := by
  have still : first.owner? (if second.isBuild then built + 1 else built) = some i ∧
      second.owner? (if first.isBuild then built + 1 else built) = some j := by
    cases first with
    | configure _ | config | describe | requested => cases ofFirst
    | build _ _ _ =>
      cases second with
      | configure _ | config | describe | requested => cases ofSecond
      | build _ _ _ => exact absurd (Option.some.inj (ofFirst.symm.trans ofSecond)) apart
      | use _ _ => exact ⟨ofFirst, ofSecond⟩
    | use _ _ =>
      cases second with
      | configure _ | config | describe | requested => cases ofSecond
      | build _ _ _ | use _ _ => exact ⟨ofFirst, ofSecond⟩
  have count : (if second.isBuild then (if first.isBuild then built + 1 else built) + 1
        else if first.isBuild then built + 1 else built) =
      if first.isBuild then (if second.isBuild then built + 1 else built) + 1
        else if second.isBuild then built + 1 else built := by
    split_ifs <;> rfl
  rw [select_concerns_cons _ ofFirst, select_concerns_cons _ still.2, select_concerns_cons _ ofSecond,
    select_concerns_cons _ still.1, count]
  exact ite_cons_comm (fun own other => apart (own.trans other.symm)) _ _ _

/-- The place of a slot among those that trade places with the next one. -/
private theorem le_swap_iff {n slot count : ℕ} (aside : count ≤ n ∨ n + 2 ≤ count) :
    count ≤ Equiv.swap n (n + 1) slot ↔ count ≤ slot := by
  by_cases left : slot = n
  · rw [left, Equiv.swap_apply_left]
    omega
  by_cases right : slot = n + 1
  · rw [right, Equiv.swap_apply_right]
    omega
  rw [Equiv.swap_apply_of_ne_of_ne left right]

private theorem builds_moved (place : ℕ → ℕ) (steps : List Step) :
    builds (steps.map (Step.moved place)) = builds steps := by
  rw [builds, List.countP_map, builds]
  congr 1
  funext step
  cases step <;> rfl

/-- Nothing that generators depend on changes if their builds trade places, but they trade slots. -/
theorem concerns_swap_builds {slot : ℕ} {before after : List Step} {first second : Step}
    (buildsFirst : first.isBuild = true) (buildsSecond : second.isBuild = true) :
    select (Step.concerns (Equiv.swap (builds before) (builds before + 1) slot)) 0
        (before.map (Step.moved (Equiv.swap (builds before) (builds before + 1))) ++
          second :: first :: after.map (Step.moved (Equiv.swap (builds before) (builds before + 1)))) =
      select (Step.concerns slot) 0 (before ++ first :: second :: after) := by
  have place := (Equiv.swap (builds before) (builds before + 1)).injective
  have earlier := concerns_moved place slot 0 before fun count _ last =>
    le_swap_iff (.inl (by omega))
  have later := concerns_moved place slot (builds before + 2) after
    fun count first _ => le_swap_iff (.inr first)
  rw [select_append, select_append, earlier, builds_moved, Nat.zero_add]
  congr 1
  cases first with
  | configure _ | config | describe | requested | use _ _ => cases buildsFirst
  | build _ _ _ =>
    cases second with
    | configure _ | config | describe | requested | use _ _ => cases buildsSecond
    | build _ _ _ =>
      have left : builds before = Equiv.swap (builds before) (builds before + 1) slot ↔
          builds before + 1 = slot := by
        rw [eq_comm, Equiv.swap_apply_eq_iff, Equiv.swap_apply_left, eq_comm]
      have right : builds before + 1 = Equiv.swap (builds before) (builds before + 1) slot ↔
          builds before = slot := by
        rw [eq_comm, Equiv.swap_apply_eq_iff, Equiv.swap_apply_right, eq_comm]
      rw [select_concerns_cons _ rfl, select_concerns_cons _ rfl, select_concerns_cons _ rfl,
        select_concerns_cons _ rfl]
      simp only [Step.isBuild, if_true, left, right, Step.moved, Nat.add_assoc, later, Nat.reduceAdd]
      exact ite_cons_comm (fun own other => by omega) _ _ _

variable {σ ω : Type} [SeedProvider ω σ] [Randomness ω] [Metered ω]

/-- What the generator in a slot answers to its build and its uses, with the events. -/
def answersOf (slot : ℕ) : List Step → Session σ ω → List (StepAnswer × List Event)
  | [], _ => []
  | step :: rest, s =>
    let (answer, events, last) := s.step step
    if step.owner? s.slots.length = some slot then (answer, events) :: answersOf slot rest last
    else answersOf slot rest last

/-- A session in which nobody draws auxiliary randomness, in an environment that hands out certain
sources. -/
structure Alone (yields : ω → ℕ → Except EntropyFailure σ) (given : ℕ → Except EntropyFailure σ)
    (s : Session σ ω) : Prop where
  builder : s.builder.auxiliary = false
  generators : ∀ g, some g ∈ s.slots → g.auxiliary = false
  world : yields s.world = given

/-- A session that has taken the steps that concern the generator in a slot of another session, and
no others. -/
structure Shadows (yields : ω → ℕ → Except EntropyFailure σ) (given : ℕ → Except EntropyFailure σ)
    (slot : ℕ) (s t : Session σ ω) : Prop where
  builder : s.slots.length ≤ slot → t.builder = s.builder
  world : yields t.world = given
  slots : t.slots = s.slots[slot]?.toList

variable {yields : ω → ℕ → Except EntropyFailure σ} {next : σ → Except EntropyFailure Bytes × σ}
  {given : ℕ → Except EntropyFailure σ} {s t : Session σ ω} {slot : ℕ}

omit [Metered ω] in
/-- A build does not depend on what else its environment was used for. -/
theorem build_isolated (isolated : Isolated yields next) {b : Builder} (alone : b.auxiliary = false)
    {w x : ω} (first : yields w = given) (second : yields x = given) (order : Order) (nonce : Bytes)
    (predictionResistant : Bool) :
    ∃ result events world moved,
      b.build order nonce predictionResistant w = (result, events, world) ∧
        b.build order nonce predictionResistant x = (result, events, moved) ∧
        yields world = given ∧ yields moved = given ∧
        ∀ g, result = .ok g → g.auxiliary = false := by
  have builders : Builder.Alike CoreView.full.toView b b := ⟨.refl b.config, rfl⟩
  have admitted : CoreView.full.Admits order := fun _ _ _ _ _ => trivial
  have nonces : CoreView.full.like nonce nonce := rfl
  obtain ⟨agree, events, after⟩ := (isolated.coupling given).build builders alone ⟨first, second⟩
    nonces admitted predictionResistant
  rcases built : b.build order nonce predictionResistant w with ⟨result, reported, world⟩
  rcases rebuilt : b.build order nonce predictionResistant x with ⟨result', reported', moved⟩
  rw [built, rebuilt] at agree events after
  obtain rfl : reported' = reported := events
  cases agree with
  | error cause => exact ⟨_, _, world, moved, rfl, rfl, after.1, after.2, nofun⟩
  | @ok g h alike =>
    obtain rfl := alike.eq
    refine ⟨_, _, world, moved, rfl, rfl, after.1, after.2, ?_⟩
    rintro _ ⟨⟩
    exact alike.auxiliary

omit [Metered ω] in
/-- A use of a generator does not depend on what else its environment was used for. -/
theorem useGenerator_isolated (isolated : Isolated yields next) {g : Generator (Seeded σ)}
    (alone : g.auxiliary = false) {w x : ω} (first : yields w = given) (second : yields x = given)
    (operation : Operation) :
    ∃ answer events h world moved, useGenerator g w operation = (answer, events, h, world) ∧
      useGenerator g x operation = (answer, events, h, moved) ∧ yields world = given ∧
      yields moved = given ∧ h.auxiliary = false := by
  obtain ⟨answers, events, alike, after⟩ := (isolated.coupling given).useGenerator
    (v := CoreView.full) (.refl alone) ⟨first, second⟩ (.refl operation)
  rcases used : useGenerator g w operation with ⟨answer, reported, h, world⟩
  rcases reused : useGenerator g x operation with ⟨answer', reported', h', moved⟩
  rw [used, reused] at answers events alike after
  obtain rfl : answer = answer' := answers.eq
  obtain rfl : reported' = reported := events
  obtain rfl : h' = h := alike.eq
  exact ⟨_, _, _, world, moved, rfl, rfl, after.1, after.2, alike.auxiliary⟩

omit [SeedProvider ω σ] [Randomness ω] [Metered ω] in
/-- The generator in a slot that is not empty. -/
private theorem mem_of_join {g : Generator (Seeded σ)} (found : s.slots[slot]?.join = some g) :
    some g ∈ s.slots ∧ s.slots[slot]? = some (some g) := by
  have present := Option.join_eq_some_iff.mp found
  exact ⟨List.mem_of_getElem? present, present⟩

/-- No step draws auxiliary randomness or changes the sources that are handed out. -/
theorem Alone.step (alone : Alone yields given s) (isolated : Isolated yields next) (step : Step) :
    Alone yields given (s.step step).2.2 := by
  cases step with
  | configure setting => exact { alone with builder := alone.builder }
  | config | describe | requested => exact alone
  | build order nonce predictionResistant =>
    obtain ⟨result, events, world, _, built, -, kept, -, flags⟩ := build_isolated isolated
      alone.builder alone.world alone.world order nonce predictionResistant
    simp only [Session.step, built]
    refine ⟨alone.builder, ?_, kept⟩
    intro g member
    rcases List.mem_append.mp member with earlier | last
    · exact alone.generators g earlier
    · cases result with
      | error cause => simp [Except.toOption] at last
      | ok h =>
        obtain rfl : g = h := by simpa [Except.toOption] using last
        exact flags g rfl
  | use owner operation =>
    simp only [Session.step]
    cases found : s.slots[owner]?.join with
    | none => exact alone
    | some g =>
      have flag := alone.generators g (mem_of_join found).1
      obtain ⟨answer, events, h, world, _, used, -, kept, -, still⟩ :=
        useGenerator_isolated isolated flag alone.world alone.world operation
      simp only [used]
      refine ⟨alone.builder, ?_, kept⟩
      intro g member
      rcases List.mem_or_eq_of_mem_set member with earlier | same
      · exact alone.generators g earlier
      · obtain rfl := Option.some.inj same
        exact still

/-- A step of the generator in the slot has the same answer, and the other session can take it, too. -/
theorem Shadows.own (shadows : Shadows yields given slot s t) (alone : Alone yields given s)
    (isolated : Isolated yields next) {step : Step}
    (own : step.owner? s.slots.length = some slot) :
    (step.moved fun _ => 0).owner? t.slots.length = some 0 ∧
      (t.step (step.moved fun _ => 0)).1 = (s.step step).1 ∧
      (t.step (step.moved fun _ => 0)).2.1 = (s.step step).2.1 ∧
      Shadows yields given slot (s.step step).2.2 (t.step (step.moved fun _ => 0)).2.2 := by
  cases step with
  | configure _ | config | describe | requested => cases own
  | build order nonce predictionResistant =>
    obtain rfl : s.slots.length = slot := Option.some.inj own
    obtain ⟨result, events, world, moved, built, rebuilt, -, again, -⟩ := build_isolated isolated
      alone.builder alone.world shadows.world order nonce predictionResistant
    have vacant : t.slots = [] := by
      rw [shadows.slots, List.getElem?_eq_none le_rfl]
      rfl
    simp only [Step.moved, Session.step, shadows.builder le_rfl, built, rebuilt, vacant]
    refine ⟨rfl, trivial, trivial, ?_, again, ?_⟩
    · exact fun _ => rfl
    · simp
  | use owner operation =>
    obtain rfl : owner = slot := Option.some.inj own
    have same : t.slots[0]?.join = s.slots[owner]?.join := by
      rw [shadows.slots]
      cases s.slots[owner]? <;> rfl
    simp only [Step.moved, Session.step, same]
    cases found : s.slots[owner]?.join with
    | none => exact ⟨rfl, rfl, rfl, shadows⟩
    | some g =>
      obtain ⟨member, present⟩ := mem_of_join found
      obtain ⟨answer, events, h, world, moved, used, reused, -, again, -⟩ := useGenerator_isolated
        isolated (alone.generators g member) alone.world shadows.world operation
      have within : owner < s.slots.length := (List.getElem?_eq_some_iff.mp present).1
      simp only [used, reused]
      refine ⟨rfl, trivial, trivial, ?_, again, ?_⟩
      · intro pending
        rw [List.length_set] at pending
        exact absurd within (not_lt.mpr pending)
      · rw [shadows.slots, present, List.getElem?_set_self within]
        rfl

/-- A step of another generator leaves everything as it is that the generator in the slot depends
on. -/
theorem Shadows.other (shadows : Shadows yields given slot s t) {step : Step}
    {owner : ℕ} (others : step.owner? s.slots.length = some owner) (apart : owner ≠ slot) :
    Shadows yields given slot (s.step step).2.2 t := by
  cases step with
  | configure _ | config | describe | requested => cases others
  | build order nonce predictionResistant =>
    obtain rfl : s.slots.length = owner := Option.some.inj others
    refine ⟨?_, shadows.world, ?_⟩
    · intro pending
      simp only [Session.step, List.length_append, List.length_singleton] at pending
      exact shadows.builder (by omega)
    · rw [shadows.slots]
      simp only [Session.step]
      congr 1
      rcases lt_or_gt_of_ne apart with later | earlier
      · rw [List.getElem?_eq_none later.le, List.getElem?_eq_none]
        simp only [List.length_append, List.length_singleton]
        omega
      · rw [List.getElem?_append_left earlier]
  | use other operation =>
    obtain rfl : other = owner := Option.some.inj others
    simp only [Session.step]
    cases s.slots[other]?.join with
    | none => exact shadows
    | some g =>
      refine ⟨?_, shadows.world, ?_⟩
      · intro pending
        rw [List.length_set] at pending
        exact shadows.builder pending
      · rw [shadows.slots, List.getElem?_set_ne apart]

private theorem length_step (s : Session σ ω) (step : Step) :
    (s.step step).2.2.slots.length = if step.isBuild then s.slots.length + 1 else s.slots.length := by
  cases step with
  | use slot operation =>
    simp only [Session.step, Step.isBuild]
    cases s.slots[slot]?.join with
    | none => rfl
    | some g => exact List.length_set ..
  | build order nonce predictionResistant => simp [Session.step, Step.isBuild]
  | configure _ | config | describe | requested => rfl

/-- What a generator answers is what it answers in a session that takes no other steps than those
that concern it. -/
theorem Shadows.answersOf (shadows : Shadows yields given slot s t) (alone : Alone yields given s)
    (isolated : Isolated yields next) (steps : List Step) :
    Session.answersOf slot steps s =
      Session.answersOf 0 (select (Step.concerns slot) s.slots.length steps) t := by
  induction steps generalizing s t with
  | nil => rfl
  | cons step rest ih =>
    have after := alone.step isolated step
    have length := length_step s step
    cases owned : step.owner? s.slots.length with
    | some owner =>
      simp only [Session.answersOf, select, Step.concerns_of_owner? owned, decide_eq_true_eq, owned,
        Option.some.injEq, ← length]
      by_cases own : owner = slot
      · subst own
        obtain ⟨first, answers, events, still⟩ := shadows.own alone isolated owned
        simp only [if_true, Session.answersOf, first, answers, events, ih still after]
      · rw [if_neg own, if_neg own]
        exact ih (shadows.other owned own) after
    | none =>
      cases step with
      | build _ _ _ | use _ _ => cases owned
      | configure setting =>
        simp only [Session.answersOf, owned, reduceCtorEq, if_false, select, Step.concerns,
          decide_eq_true_eq, ← length]
        split
        next pending =>
          have same := shadows.builder pending
          refine ih { shadows with builder := fun _ => ?_ } after
          simp only [Session.step, same]
        next built =>
          exact ih { shadows with builder := fun pending => absurd pending built } after
      | config | describe | requested => exact ih shadows after

/-- The generator in a slot answers the same to all steps that concern it in the same order. -/
theorem answersOf_congr (isolated : Isolated yields next) (b : Builder) (alone : b.auxiliary = false)
    (w : ω) {slot other : ℕ} {steps others : List Step}
    (same : select (Step.concerns slot) 0 steps = select (Step.concerns other) 0 others) :
    answersOf slot steps { builder := b, world := w } =
      answersOf other others { builder := b, world := w } := by
  have start : Alone yields (yields w) { builder := b, world := w } :=
    ⟨alone, fun _ none => absurd none List.not_mem_nil, rfl⟩
  have shadows (slot : ℕ) :
      Shadows yields (yields w) slot { builder := b, world := w } { builder := b, world := w } :=
    ⟨fun _ => rfl, rfl, rfl⟩
  rw [(shadows slot).answersOf start isolated, (shadows other).answersOf start isolated]
  exact congrArg (answersOf 0 · _) same

/-- Generators of one builder are independent, where their sources share no state and the builder has
no auxiliary randomness. Each answers as if no other generator had ever been asked for. It answers
the same if adjacent steps of different generators trade places, where generators whose builds trade
places trade slots, and if settings are changed after its build. -/
theorem generators_independent (isolated : Isolated yields next) (b : Builder)
    (alone : b.auxiliary = false) (w : ω) :
    let start : Session σ ω := { builder := b, world := w }
    (∀ slot steps, answersOf slot steps start = answersOf 0 (isolate slot steps) start) ∧
      (∀ before first second after slot i j, first.owner? (builds before) = some i →
        second.owner? (builds before) = some j → i ≠ j →
          answersOf slot (before ++ first :: second :: after) start =
            answersOf slot (before ++ second :: first :: after) start) ∧
      (∀ before first second after slot, first.isBuild = true → second.isBuild = true →
        let place := Equiv.swap (builds before) (builds before + 1)
        answersOf slot (before ++ first :: second :: after) start =
          answersOf (place slot)
            (before.map (Step.moved place) ++ second :: first :: after.map (Step.moved place)) start) ∧
      ∀ before setting after slot, slot < builds before →
        answersOf slot (before ++ .configure setting :: after) start =
          answersOf slot (before ++ after) start := by
  intro start
  refine ⟨?_, ?_, ?_, ?_⟩
  · intro slot steps
    exact answersOf_congr isolated b alone w (concerns_spares slot 0 steps).symm
  · intro before first second after slot i j ofFirst ofSecond apart
    apply answersOf_congr isolated b alone w
    rw [select_append, select_append, Nat.zero_add, concerns_swap after ofFirst ofSecond apart]
  · intro before first second after slot buildsFirst buildsSecond place
    exact answersOf_congr isolated b alone w (concerns_swap_builds buildsFirst buildsSecond).symm
  · intro before setting after slot built
    apply answersOf_congr isolated b alone w
    rw [select_append, select_append, Nat.zero_add]
    have passed : ¬ builds before ≤ slot := not_le.mpr built
    simp only [select, Step.concerns, Step.isBuild, passed, decide_false, Bool.false_eq_true, if_false]

/-- Two generators over recordings, between a build that fails and a change of the settings. -/
theorem generators_independent_three_builds :
    let start : Session Player Playback :=
      { builder := { auxiliary := false }, world := { recording := .counting 32 } }
    let before : List Step :=
      [.build (.ctr 100 228) [] false, .build (.hmac .sha256) [1] false,
        .configure (.reseedInterval 1), .build (.hash .sha256) [2] true]
    let first : Step := .use 1 (.generate 3 [4])
    let second : Step := .use 2 (.fill [0, 0] [5])
    let after : List Step := [.use 1 (.reseed []), .describe, .use 2 (.word 4)]
    isolate 2 (before ++ first :: second :: after) =
        [.configure (.reseedInterval 1), .build (.hash .sha256) [2] true,
          .use 0 (.fill [0, 0] [5]), .describe, .use 0 (.word 4)] ∧
      answersOf 2 (before ++ first :: second :: after) start =
        answersOf 0 (isolate 2 (before ++ first :: second :: after)) start ∧
      (∀ slot, answersOf slot (before ++ first :: second :: after) start =
        answersOf slot (before ++ second :: first :: after) start) ∧
      answersOf 1 (before ++ first :: second :: after) start =
        answersOf 1 (before ++ .configure (.entropyBits 8) :: first :: second :: after) start := by
  intro start before first second after
  obtain ⟨others, adjacent, -, settings⟩ := generators_independent Playback.isolated
    { auxiliary := false } rfl { recording := .counting 32 }
  refine ⟨rfl, others 2 _, fun slot => ?_, (settings before _ _ 1 (by decide)).symm⟩
  exact adjacent before first second after slot 1 2 rfl rfl (by decide)

end Session

end RandomBits

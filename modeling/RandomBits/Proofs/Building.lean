import Mathlib
import RandomBits.Proofs.Validation

/-! # What a builder checks before it asks for entropy

`Builder.Admits` lists what settings and an order have to fulfil. The checks that are made along the
way come to exactly this (`Builder.checkedPlan_eq_ok_iff_admits`), and all of them are made before
the environment is touched. So an order that is admitted can only fail for want of entropy
(`Builder.builds`). What the environment sees of a build is counted call by call in
`Builder.build_vetted`.
-/

namespace RandomBits

/-- A curve is the weakest of those that meet a security strength. -/
structure Curve.Weakest (strength : ℕ) (c : Curve) : Prop where
  meets : strength ≤ c.securityStrength
  least (other : Curve) (met : strength ≤ other.securityStrength) :
    c.securityStrength ≤ other.securityStrength

/-- The curve that is chosen for a security strength is the weakest that meets it. -/
theorem Curve.weakest_of_forStrength? {strength : ℕ} {c : Curve}
    (chosen : forStrength? strength = some c) : Weakest strength c := by
  obtain ⟨met, before, after, same, weaker⟩ := List.find?_eq_some_iff_append.mp chosen
  refine ⟨of_decide_eq_true met, fun other reached => ?_⟩
  -- The curves are listed by strength, so none behind the chosen one is weaker.
  have sorted : [p256, p384, p521].Pairwise (·.securityStrength ≤ ·.securityStrength) := by decide
  have listed : other ∈ [p256, p384, p521] := by cases other <;> decide
  rw [same] at sorted listed
  rcases List.mem_append.mp listed with earlier | rest
  · simpa [reached] using weaker other earlier
  · rcases List.mem_cons.mp rest with rfl | later
    · exact le_rfl
    · exact (List.pairwise_cons.mp (List.pairwise_append.mp sorted).2.1).1 other later

/-- Digests are as strong as the curves that they are used with. -/
private theorem Curve.Weakest.le_maxSecurityStrength {strength : ℕ} {c : Curve}
    (weakest : c.Weakest strength) {d : Digest} (supported : strength ≤ d.maxSecurityStrength) :
    c.securityStrength ≤ d.maxSecurityStrength := by
  have equal : ∃ other : Curve, other.securityStrength = d.maxSecurityStrength := by
    cases d
    case sha224 | sha512_224 => exact ⟨.p384, rfl⟩
    all_goals exact ⟨.p521, rfl⟩
  obtain ⟨other, same⟩ := equal
  rw [← same] at supported ⊢
  exact weakest.least other supported

namespace Order

/-- The scheme of an order whose sizes are right. -/
def target : Order → Scheme
  | hash d => .hash d
  | hmac d => .hmac d
  | ctr keyBits _ => .ctr keyBits
  | dualEc d => .dualEc d

/-- A block cipher is ordered with one of its key sizes and the seed length that goes with it. -/
def Sized : Order → Prop
  | ctr keyBits seedBits => keyBits ∈ [128, 192, 256] ∧ seedBits = keyBits + 128
  | _ => True

/-- The highest security strength that can be had from an order. -/
def strengthLimit : Order → ℕ
  | hash d | hmac d => d.maxSecurityStrength
  | ctr keyBits _ => keyBits
  | dualEc d => min 256 d.maxSecurityStrength

/-- The largest reseed interval that can be had from an order. -/
def intervalLimit : Order → ℕ
  | dualEc _ => 2 ^ 32
  | _ => 2 ^ 48

private theorem maxReseedInterval_target (order : Order) :
    order.target.maxReseedInterval = order.intervalLimit := by
  cases order <;> rfl

/-- An order comes to a scheme exactly if its sizes are right. -/
theorem scheme_eq_ok_iff {order : Order} {scheme : Scheme} :
    order.scheme = .ok scheme ↔ order.Sized ∧ scheme = order.target := by
  cases order with
  | hash d | hmac d | dualEc d =>
    simp only [Order.scheme, Sized, target, Except.ok.injEq, true_and]
    exact eq_comm
  | ctr keyBits seedBits =>
    simp only [Order.scheme, bind_eq_ok_iff, require_eq_ok_iff, exists_const, Aes.supportsKeyBits_eq,
      Aes.KeySize.isSome_ofBits?_iff, Sized, target, and_assoc]
    refine and_congr_right fun _ => and_congr_right fun _ => ?_
    exact ⟨fun same => (Except.ok.inj same).symm, fun same => congrArg Except.ok same.symm⟩

/-- The strength that a scheme is checked against decides like the limit of its order. -/
theorem supported_iff {order : Order} (sized : order.Sized) {strength : ℕ} :
    (∃ supported primitive,
        order.target.supportedStrength strength = .ok (supported, primitive) ∧
          strength ≤ supported) ↔
      strength ≤ order.strengthLimit := by
  cases order with
  | hash d | hmac d => simp [target, Scheme.supportedStrength, strengthLimit]
  | ctr keyBits seedBits =>
    obtain ⟨size, known⟩ := Option.isSome_iff_exists.mp (Aes.KeySize.isSome_ofBits?_iff.mpr sized.1)
    obtain ⟨strong, long⟩ := Scheme.cipherStrength_of_ofBits? known
    simp [target, Scheme.supportedStrength, strengthLimit, Aes.supportsKeyBits_eq, known, strong, long]
  | dualEc d =>
    simp only [target, Scheme.supportedStrength, strengthLimit, le_min_iff]
    cases chosen : Curve.forStrength? strength with
    | none =>
      have beyond : ¬ strength ≤ 256 := by
        rw [← Curve.isSome_forStrength?_iff, chosen]
        exact Bool.false_ne_true
      simp [beyond, Curve.securityStrength]
    | some c =>
      have weakest := Curve.weakest_of_forStrength? chosen
      have reached := weakest.meets.trans c.securityStrength_le
      dsimp only
      split
      next weaker => simp [reached]
      next stronger => simp [reached, weakest.meets, weakest.meets.trans (not_lt.mp stronger)]

end Order

namespace Builder

/-- What settings and an order have to fulfil. -/
structure Admits (b : Builder) (order : Order) : Prop where
  sized : order.Sized
  strength_pos : 1 ≤ b.config.securityStrength
  enough : b.config.securityStrength ≤ b.config.entropyBits
  supported : b.config.securityStrength ≤ order.strengthLimit
  interval (interval : ℕ) (given : b.config.reseedInterval = some interval) :
    1 ≤ interval ∧ interval ≤ order.intervalLimit
  personalization (string : Bytes) (given : b.config.personalization = some string) :
    string.length ≤ maxInputLength

variable {b : Builder} {order : Order} {nonce : Bytes} {plan : Plan}

theorem admits_iff (nonce : Bytes) :
    b.Admits order ↔ order.Sized ∧ (b.plan order.target nonce).Valid b.config.entropyBits := by
  constructor
  · intro admitted
    refine ⟨admitted.sized, admitted.strength_pos, ?_, admitted.enough, ?_, ?_⟩
    · exact (Order.supported_iff admitted.sized).mpr admitted.supported
    · intro interval given
      exact order.maxReseedInterval_target ▸ admitted.interval interval given
    · change (b.config.personalization.getD []).length ≤ maxInputLength
      cases given : b.config.personalization with
      | none => exact Nat.zero_le _
      | some string => exact admitted.personalization string given
  · rintro ⟨sized, valid⟩
    refine ⟨sized, valid.strength_pos, valid.enough, ?_, ?_, ?_⟩
    · exact (Order.supported_iff sized).mp valid.supported
    · intro interval given
      exact order.maxReseedInterval_target ▸ valid.interval interval given
    · intro string given
      have short : (b.config.personalization.getD []).length ≤ maxInputLength :=
        valid.personalization
      rwa [given] at short

/-- The checks that are made along the way accept exactly what is admitted. -/
theorem checkedPlan_eq_ok_iff_admits :
    b.checkedPlan order nonce = .ok plan ↔ b.Admits order ∧ plan = b.plan order.target nonce := by
  rw [checkedPlan_eq_ok_iff, admits_iff nonce]
  constructor
  · rintro ⟨scheme, asked, rfl, valid⟩
    obtain ⟨sized, rfl⟩ := Order.scheme_eq_ok_iff.mp asked
    exact ⟨⟨sized, valid⟩, rfl⟩
  · rintro ⟨⟨sized, valid⟩, rfl⟩
    exact ⟨order.target, Order.scheme_eq_ok_iff.mpr ⟨sized, rfl⟩, rfl, valid⟩

theorem Admits.checkedPlan (admitted : b.Admits order) (nonce : Bytes) :
    b.checkedPlan order nonce = .ok (b.plan order.target nonce) :=
  checkedPlan_eq_ok_iff_admits.mpr ⟨admitted, rfl⟩

theorem Admits.valid (admitted : b.Admits order) (nonce : Bytes) :
    (b.plan order.target nonce).Valid b.config.entropyBits :=
  ((admits_iff nonce).mp admitted).2

section

variable {σ ω : Type} [SeedProvider ω σ]

/-- Everything that a build can lead to. -/
inductive Builds (b : Builder) (order : Order) (nonce : Bytes) (predictionResistant : Bool)
    (w : ω) : Except Failure (Generator (Seeded σ)) → ω → Prop
  | refused {refusal : Refusal} (inadmissible : ¬ b.Admits order)
      (checked : b.checkedPlan order nonce = .error refusal) :
      Builds b order nonce predictionResistant w (.error (.refused refusal)) w
  | unprovided {cause : EntropyFailure} {world : ω} (admitted : b.Admits order)
      (asked : SeedProvider.get w b.config.entropyBits = (.error cause, world)) :
      Builds b order nonce predictionResistant w (.error (.entropyUnavailable cause)) world
  | unseeded {source rest : σ} {cause : EntropyFailure} {middle world : ω}
      (admitted : b.Admits order)
      (asked : SeedProvider.get w b.config.entropyBits = (.ok source, middle))
      (fetched : Seeded.fetchSeed b.config.securityStrength source middle =
        (.error cause, rest, world)) :
      Builds b order nonce predictionResistant w (.error (.entropyUnavailable cause)) world
  | built {source rest : σ} {entropy : Bytes} {middle world : ω} {m : Seeded σ}
      (admitted : b.Admits order)
      (asked : SeedProvider.get w b.config.entropyBits = (.ok source, middle))
      (fetched : Seeded.fetchSeed b.config.securityStrength source middle =
        (.ok entropy, rest, world))
      (made : (b.plan order.target nonce).instantiate source middle = (.ok m, world)) :
      Builds b order nonce predictionResistant w
        (.ok { mechanism := m, auxiliary := b.auxiliary, predictionResistant }) world

theorem builds (b : Builder) (order : Order) (nonce : Bytes) (predictionResistant : Bool) (w : ω) :
    Builds b order nonce predictionResistant w (b.build order nonce predictionResistant w).1
      (b.build order nonce predictionResistant w).2.2 := by
  unfold build
  cases checked : b.checkedPlan order nonce with
  | error refusal =>
    refine .refused (fun admitted => ?_) checked
    cases checked.symm.trans (admitted.checkedPlan nonce)
  | ok plan =>
    obtain ⟨admitted, rfl⟩ := checkedPlan_eq_ok_iff_admits.mp checked
    have valid := admitted.valid nonce
    dsimp only
    unfold Plan.carryOut
    rcases asked : SeedProvider.get w b.config.entropyBits with ⟨cause | source, middle⟩
    · exact .unprovided admitted asked
    · rcases fetched : Seeded.fetchSeed b.config.securityStrength source middle with
        ⟨cause | entropy, rest, world⟩
      · dsimp only
        rw [Plan.instantiate_of_unavailable valid fetched]
        exact .unseeded admitted asked fetched
      · obtain ⟨m, made, -⟩ := Plan.instantiate_of_valid valid fetched
        dsimp only
        rw [made]
        exact .built admitted asked fetched made

/-- Nothing else can happen than what happens. -/
theorem Builds.eq {predictionResistant : Bool} {w world : ω}
    {result : Except Failure (Generator (Seeded σ))}
    (ran : Builds b order nonce predictionResistant w result world) :
    (b.build order nonce predictionResistant w).1 = result ∧
      (b.build order nonce predictionResistant w).2.2 = world := by
  cases ran with
  | refused _ checked => simp only [build, checked, and_self]
  | unprovided admitted asked =>
    simp only [build, admitted.checkedPlan, Plan.carryOut, asked, and_self]
  | unseeded admitted asked fetched =>
    have failed := Plan.instantiate_of_unavailable (admitted.valid nonce) fetched
    simp only [build, admitted.checkedPlan, Plan.carryOut, asked, failed, and_self]
  | built admitted asked _ made =>
    simp only [build, admitted.checkedPlan, Plan.carryOut, asked, made, and_self]

/-- The curve of a Dual_EC_DRBG that is built is the weakest that meets the strength asked for, and
its digest is at least as strong. -/
theorem Builds.curve {d : Digest} {w world : ω} {g : Generator (Seeded σ)}
    {predictionResistant : Bool}
    (built : Builds b (.dualEc d) nonce predictionResistant w (.ok g) world) :
    ∃ c : Curve, g.mechanism.core.algorithm = .dualEc d c ∧ c.Weakest b.config.securityStrength ∧
      c.securityStrength ≤ d.maxSecurityStrength := by
  cases built with
  | built admitted _ _ made =>
    obtain ⟨a, chosen, fresh⟩ := Seeded.instantiated made
    have supported := (le_min_iff.mp admitted.supported).2
    simp only [plan, Order.target, Scheme.algorithm] at chosen
    split at chosen
    next => cases chosen
    next c found =>
      have weakest := Curve.weakest_of_forStrength? found
      rw [← Except.ok.inj chosen] at fresh
      exact ⟨c, fresh.algorithm, weakest, weakest.le_maxSecurityStrength supported⟩

end

end Builder

inductive EntropyCall
  | get (bits : ℕ)
  | fetch
deriving DecidableEq

/-- An environment with the calls for seed material that were made in it, in order. -/
structure Overseen (ω : Type) where
  world : ω
  calls : List EntropyCall := []

section

variable {σ ω : Type} [SeedProvider ω σ]

instance : SeedProvider (Overseen ω) σ where
  fetch source w :=
    let (result, source, world) := SeedSource.fetch source w.world
    (result, source, { world, calls := w.calls ++ [.fetch] })
  get w bits :=
    let (result, world) := SeedProvider.get w.world bits
    (result, { world, calls := w.calls ++ [.get bits] })

namespace Overseen

variable {w after : ω} (calls : List EntropyCall)

private theorem get_eq {bits : ℕ} {result : Except EntropyFailure σ}
    (asked : SeedProvider.get w bits = (result, after)) :
    SeedProvider.get (Overseen.mk w calls) bits =
      (result, Overseen.mk after (calls ++ [.get bits])) := by
  simp only [SeedProvider.get, asked]

private theorem fetchSeed_eq {strength : ℕ} {source rest : σ} {seed : Except EntropyFailure Bytes}
    (fetched : Seeded.fetchSeed strength source w = (seed, rest, after)) :
    Seeded.fetchSeed strength source (Overseen.mk w calls) =
      (seed, rest, Overseen.mk after (calls ++ [.fetch])) := by
  cases fetched
  rfl

end Overseen

namespace Builder

/-- What a build has to come to in an environment. -/
structure Vetted (b : Builder) (order : Order) (w : Overseen ω)
    (result : Except Failure (Generator (Seeded σ))) (after : Overseen ω) : Prop where
  /-- Exactly what is not admitted is refused. -/
  refused_iff : (∃ refusal, result = .error (.refused refusal)) ↔ ¬ b.Admits order
  /-- An order that is refused leaves the environment alone. -/
  untouched (inadmissible : ¬ b.Admits order) : after = w
  /-- One source is asked for; if there is none, nothing is fetched. -/
  unprovided {cause : EntropyFailure} {world : ω} (admitted : b.Admits order)
    (asked : SeedProvider.get w.world b.config.entropyBits = (.error cause, world)) :
    result = .error (.entropyUnavailable cause) ∧
      after = { world, calls := w.calls ++ [.get b.config.entropyBits] }
  /-- The source is fetched from once; if it yields no seed, that is why the build fails. -/
  unseeded {source rest : σ} {cause : EntropyFailure} {middle world : ω}
    (admitted : b.Admits order)
    (asked : SeedProvider.get w.world b.config.entropyBits = (.ok source, middle))
    (fetched : Seeded.fetchSeed b.config.securityStrength source middle =
      (.error cause, rest, world)) :
    result = .error (.entropyUnavailable cause) ∧
      after = { world, calls := w.calls ++ [.get b.config.entropyBits, .fetch] }
  /-- With a seed the build succeeds. -/
  built {source rest : σ} {entropy : Bytes} {middle world : ω} (admitted : b.Admits order)
    (asked : SeedProvider.get w.world b.config.entropyBits = (.ok source, middle))
    (fetched : Seeded.fetchSeed b.config.securityStrength source middle =
      (.ok entropy, rest, world)) :
    (∃ g, result = .ok g) ∧
      after = { world, calls := w.calls ++ [.get b.config.entropyBits, .fetch] }
  /-- The curve is the weakest that is strong enough, and its digest is no weaker. -/
  curve {d : Digest} {g : Generator (Seeded σ)} (ordered : order = .dualEc d)
    (success : result = .ok g) :
    ∃ c : Curve, g.mechanism.core.algorithm = .dualEc d c ∧ c.Weakest b.config.securityStrength ∧
      c.securityStrength ≤ d.maxSecurityStrength

theorem Builds.vetted {predictionResistant : Bool} {w after : Overseen ω}
    {result : Except Failure (Generator (Seeded σ))}
    (ran : Builds b order nonce predictionResistant w result after) :
    Vetted b order w result after := by
  have only {other : Except Failure (Generator (Seeded σ))} {last : Overseen ω}
      (happened : Builds b order nonce predictionResistant w other last) :
      result = other ∧ after = last :=
    ⟨ran.eq.1.symm.trans happened.eq.1, ran.eq.2.symm.trans happened.eq.2⟩
  have seed {source rest : σ} {seed : Except EntropyFailure Bytes} {middle world : ω}
      (fetched : Seeded.fetchSeed b.config.securityStrength source middle = (seed, rest, world)) :
      Seeded.fetchSeed b.config.securityStrength source
          (Overseen.mk middle (w.calls ++ [.get b.config.entropyBits])) =
        (seed, rest, Overseen.mk world (w.calls ++ [.get b.config.entropyBits, .fetch])) := by
    rw [Overseen.fetchSeed_eq _ fetched, List.append_assoc]
    rfl
  constructor
  case refused_iff =>
    cases ran with
    | refused inadmissible _ => exact iff_of_true ⟨_, rfl⟩ inadmissible
    | unprovided admitted _ | unseeded admitted _ _ | built admitted _ _ _ =>
      exact iff_of_false nofun (not_not_intro admitted)
  case untouched =>
    intro inadmissible
    cases ran with
    | refused _ _ => rfl
    | unprovided admitted _ | unseeded admitted _ _ | built admitted _ _ _ =>
      exact absurd admitted inadmissible
  case unprovided =>
    intro cause world admitted asked
    exact only (.unprovided admitted (Overseen.get_eq w.calls asked))
  case unseeded =>
    intro source rest cause middle world admitted asked fetched
    exact only (.unseeded admitted (Overseen.get_eq w.calls asked) (seed fetched))
  case built =>
    intro source rest entropy middle world admitted asked fetched
    obtain ⟨m, made, -⟩ := Plan.instantiate_of_valid (admitted.valid nonce) (seed fetched)
    have done := only (.built admitted (Overseen.get_eq w.calls asked) (seed fetched) made)
    exact ⟨⟨_, done.1⟩, done.2⟩
  case curve =>
    rintro d g rfl rfl
    exact ran.curve

/-- A builder validates completely, and before it touches entropy. -/
theorem build_vetted (b : Builder) (order : Order) (nonce : Bytes) (predictionResistant : Bool)
    (w : Overseen ω) :
    Vetted b order w (b.build order nonce predictionResistant w).1
      (b.build order nonce predictionResistant w).2.2 :=
  (b.builds order nonce predictionResistant w).vetted

end Builder

end

end RandomBits

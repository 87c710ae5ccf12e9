import Mathlib
import RandomBits.Proofs.Extension
import RandomBits.Proofs.PredictionResistance
import RandomBits.Proofs.ReseedCounter

/-! # The limit of a request and the interval in blocks

Dual_EC_DRBG counts blocks against its reseed interval, and a generator cuts its requests at the limit that
follows from the interval. The limit is a whole number of blocks, so the costs of chunks add up to that of
the whole buffer (`Bytes.sum_blocksFor_chunks`), and what the mechanism is charged for the chunks of a
buffer is what they cost (`Generator.Fills.charged`). Main statement: limit, costs and interval fit together
(`Algorithm.limit_fits_interval`).
-/

namespace RandomBits

namespace Bytes

/-- A buffer that is cut at whole blocks needs as many blocks as all its chunks together. -/
private theorem sum_blocksFor_chunks {size limit : ℕ} (positive : 0 < size) (some : 0 < limit)
    (whole : size ∣ limit) (b : Bytes) :
    ((b.chunks limit).map fun chunk => blocksFor chunk.length size).sum = blocksFor b.length size := by
  induction b using chunk_induction some with
  | nil => simp
  | step b nonempty ih =>
    rw [chunks_of_ne_nil some nonempty, List.map_cons, List.sum_cons, ih, List.length_take,
      List.length_drop]
    rcases le_total limit b.length with reached | short
    · obtain ⟨count, rfl⟩ := whole
      have first := blocksFor_mul_add positive count 0
      have total := blocksFor_mul_add positive count (b.length - size * count)
      rw [Nat.add_zero, blocksFor_zero, Nat.add_zero] at first
      rw [Nat.add_sub_cancel' reached] at total
      rw [min_eq_left reached, first, total]
    · rw [min_eq_right short, Nat.sub_eq_zero_of_le short, blocksFor_zero, Nat.add_zero]

end Bytes

/-- How the limit of a request fits an interval that output in blocks of `size` bytes is counted against. -/
structure Algorithm.FitsInterval (a : Algorithm) (size interval : ℕ) : Prop where
  positive : 0 < a.maxRequest interval
  wholeBlocks : size ∣ a.maxRequest interval
  capped : a.maxRequest interval ≤ 2 ^ 16
  mono {larger : ℕ} (le : interval ≤ larger) : a.maxRequest interval ≤ a.maxRequest larger
  cost (length : ℕ) : a.requestCost length = length ⌈/⌉ size
  /-- No request within the limit uses up more than the interval. -/
  affordable {length : ℕ} (fits : length ≤ a.maxRequest interval) : a.requestCost length ≤ interval
  /-- The limit is the largest number of whole blocks that allows for all this. -/
  greatest {length : ℕ} (whole : size ∣ length) (short : length ≤ 2 ^ 16)
    (within : a.requestCost length ≤ interval) : length ≤ a.maxRequest interval
  /-- Cutting at the limit neither loses a block nor counts one twice. -/
  additive (buffer : Bytes) :
    ((buffer.chunks (a.maxRequest interval)).map fun chunk => a.requestCost chunk.length).sum =
      buffer.length ⌈/⌉ size

theorem Algorithm.fitsInterval (d : Digest) (c : Curve) {interval : ℕ} (positive : 0 < interval) :
    (dualEc d c).FitsInterval c.outputLength interval where
  positive := maxRequest_pos positive
  wholeBlocks := Dvd.intro_left _ rfl
  capped := (Nat.mul_le_mul_right _ (min_le_left ..)).trans (Nat.div_mul_le_self ..)
  mono le := Nat.mul_le_mul_right _ (min_le_min_left _ le)
  cost length := blocksFor_eq_ceilDiv length c.outputLength
  affordable fits := requestCost_le positive fits
  greatest := by
    rintro _ ⟨count, rfl⟩ short within
    have cost : blocksFor (c.outputLength * count) c.outputLength = count := by
      simpa using blocksFor_mul_add c.outputLength_pos count 0
    have affordable : count ≤ interval := cost.symm.trans_le within
    have room : count ≤ maxRequestBytes / c.outputLength := by
      rw [Nat.le_div_iff_mul_le c.outputLength_pos, Nat.mul_comm]
      exact short
    rw [Nat.mul_comm]
    exact Nat.mul_le_mul_right _ (le_min room affordable)
  additive buffer := by
    rw [← blocksFor_eq_ceilDiv]
    have whole : c.outputLength ∣ (dualEc d c).maxRequest interval := Dvd.intro_left _ rfl
    exact Bytes.sum_blocksFor_chunks c.outputLength_pos (maxRequest_pos positive) whole buffer

/-- What calls put out, as it is counted against an interval. -/
def Algorithm.charges (a : Algorithm) (calls : List Exchange) : ℕ := (calls.map (Exchange.output a)).sum

namespace Logged

variable {μ : Type} [Mechanism μ] {m next : Logged μ} {additional : Bytes}

/-- A log takes no part in the calls. -/
theorem of_generate {length : ℕ} {predictionResistant : Bool} {reply : Reply}
    (asked : Mechanism.generate m length additional predictionResistant = (reply, next)) :
    Mechanism.generate m.mechanism length additional predictionResistant = (reply, next.mechanism) := by
  cases asked
  rfl

theorem of_reseed {result : Except Failure Unit}
    (reseeded : Mechanism.reseed m additional = (result, next)) :
    Mechanism.reseed m.mechanism additional = (result, next.mechanism) := by
  cases reseeded
  rfl

end Logged

/-- What every call establishes, a logged call does. -/
theorem Generator.Accrues.logged {μ : Type} [Mechanism μ] {R : μ → μ → Prop} (accrues : Accrues R) :
    Accrues fun m next : Logged μ => R m.mechanism next.mechanism where
  generate m := accrues.generate m.mechanism
  reseed m := accrues.reseed m.mechanism
  trans := accrues.trans

namespace Seeded

variable {σ ω : Type} [SeedSource σ ω] {s next : Within (Seeded σ) ω} {length : ℕ}
  {additional : Bytes} {predictionResistant : Bool} {reply : Reply}

/-- A reseed that fails raises no fault. -/
theorem Reseeds.ne_faulted {cause : Failure} (reseeded : Reseeds s additional (.error cause) next)
    (fault : Fault) : cause ≠ .faulted fault := by
  cases reseeded <;> exact nofun

omit [SeedSource σ ω] in
theorem Produces.ne_reseedLoop {m last : Seeded σ} (produced : Produces m length additional reply last) :
    reply.result ≠ .error (.failed (.faulted .reseedLoop)) := by
  cases produced with
  | exhausted _ | served _ _ => exact nofun
  | faulted _ ran => obtain rfl | rfl | rfl := (Core.raises_of_generate ran).kind <;> exact nofun

/-- No mechanism raises the fault that a generator raises. -/
theorem Serves.ne_reseedLoop (served : Serves s length additional predictionResistant reply next) :
    reply.result ≠ .error (.failed (.faulted .reseedLoop)) := by
  cases served with
  | tooLong _ _ | refused _ _ => exact nofun
  | direct _ _ produced | renewed _ _ produced => exact produced.ne_reseedLoop
  | unseeded _ reseeded =>
    intro looped
    cases looped
    exact reseeded.ne_faulted _ rfl

/-- Directly after a seed no request within the limit requires another one. -/
theorem Serves.not_required_of_reset
    (served : Serves s length additional predictionResistant reply next) (reset : s.value.counter = 0)
    (positive : 0 < s.value.interval) (fits : length ≤ s.value.maxRequest) :
    reply.result ≠ .error .reseedRequired := by
  have affordable := Algorithm.requestCost_le positive fits
  cases served with
  | tooLong _ _ | refused _ _ | unseeded _ _ => exact nofun
  | direct _ _ produced =>
    cases produced with
    | exhausted beyond =>
      rw [reset, Nat.zero_add] at beyond
      exact absurd affordable (not_le.mpr beyond)
    | faulted _ _ | served _ _ => exact nofun
  | renewed _ reseeded produced =>
    exact (Serves.renewed fits reseeded produced).not_reseedRequired positive fits

end Seeded

namespace Generator

section

variable {μ : Type} [Mechanism μ] {g : Generator μ} {additional chunk : Bytes} {chunks : List Bytes}
  {calls : List Exchange} {result : Except RequestError Unit} {o : Outcome μ}

theorem Retries.charged (a : Algorithm) (retried : Retries g additional chunk result o) :
    (Exchange.generate chunk.length additional g.predictionResistant result).output a =
      if o.result = .ok () then a.requestCost chunk.length else 0 := by
  cases retried with
  | served _ => rw [if_pos rfl, Algorithm.output_served]
  | failed _ | looped _ => simp [Exchange.output]

/-- A chunk is charged once if it is served, and not at all otherwise. -/
theorem Attempts.charged (a : Algorithm) (attempted : Attempts g additional chunk calls o) :
    a.charges calls = if o.result = .ok () then a.requestCost chunk.length else 0 := by
  cases attempted with
  | served _ => simp [Algorithm.charges, Algorithm.output_served]
  | failed _ => simp [Algorithm.charges, Exchange.output]
  | unseeded _ _ ended => simp [Algorithm.charges, Exchange.output, ended]
  | retried _ _ retried =>
    have last := retried.charged a
    rw [Bytes.length_overwrite] at last
    change 0 + (0 + _) = _
    rw [Nat.zero_add, Nat.zero_add]
    exact last

/-- The chunks that are charged are the first ones, and all of them if the request succeeds. -/
theorem Fills.charged (a : Algorithm) (filled : Fills additional g chunks calls o) :
    ∃ count, a.charges calls = ((chunks.take count).map fun chunk => a.requestCost chunk.length).sum ∧
      (o.result = .ok () → count = chunks.length) := by
  induction filled with
  | nil g => exact ⟨0, rfl, fun _ => rfl⟩
  | stopped attempted failure =>
    refine ⟨0, ?_, fun success => ?_⟩
    · rw [attempted.charged a, failure]
      rfl
    · cases failure.symm.trans success
  | cons attempted success _ ih =>
    obtain ⟨count, rest, all⟩ := ih
    refine ⟨count + 1, ?_, fun ended => congrArg (· + 1) (all ended)⟩
    have first := attempted.charged a
    rw [if_pos success] at first
    simp only [Algorithm.charges, List.map_append, List.sum_append] at first rest ⊢
    rw [first, rest, List.take_succ_cons, List.map_cons, List.sum_cons]

end

variable {σ ω : Type} [SeedSource σ ω] {g : Generator (Logged (Within (Seeded σ) ω))}
  {additional chunk : Bytes} {chunks : List Bytes} {calls : List Exchange}
  {o : Outcome (Logged (Within (Seeded σ) ω))}

/-- A chunk within the limit never needs two reseeds in a row. -/
theorem Attempts.not_looped (attempted : Attempts g additional chunk calls o)
    (positive : 0 < g.mechanism.mechanism.value.interval)
    (fits : chunk.length ≤ g.mechanism.mechanism.value.maxRequest) :
    o.result ≠ .error (.faulted .reseedLoop) := by
  have failed {s next : Within (Seeded σ) ω} {length : ℕ} {written : Bytes} {cause : Failure}
      (served : Seeded.Serves s length additional g.predictionResistant
        ⟨written, .error (.failed cause)⟩ next) : cause ≠ .faulted .reseedLoop := by
    rintro rfl
    exact served.ne_reseedLoop rfl
  cases attempted with
  | served _ => exact nofun
  | failed asked =>
    rw [result_fail]
    exact fun looped => failed (Seeded.serves (Logged.of_generate asked)) (Except.error.inj looped)
  | unseeded _ reseeded ended =>
    subst ended
    simp only [result_fail]
    have unseeded := Seeded.reseeds (Logged.of_reseed reseeded)
    exact fun looped => unseeded.ne_faulted _ (Except.error.inj looped)
  | retried asked reseeded retried =>
    have required := Seeded.serves (Logged.of_generate asked)
    have renewed := Seeded.reseeds (Logged.of_reseed reseeded)
    have properties := renewed.properties.trans required.properties
    obtain ⟨-, interval, -⟩ := Seeded.properties_eq_iff.mp properties
    have limit := congrArg Instantiation.maxRequest properties
    have reset := renewed.counter
    cases retried with
    | served _ => exact nofun
    | failed asked =>
      simp only [result_fail]
      exact fun looped => failed (Seeded.serves (Logged.of_generate asked)) (Except.error.inj looped)
    | looped asked =>
      have again := Seeded.serves (Logged.of_generate asked)
      refine absurd rfl (again.not_required_of_reset reset ?_ ?_)
      · exact interval ▸ positive
      · rw [Bytes.length_overwrite]
        exact fits.trans_eq limit.symm

/-- Chunks within the limit never end in the fault of two reseeds in a row. -/
theorem Fills.not_looped (filled : Fills additional g chunks calls o)
    (positive : 0 < g.mechanism.mechanism.value.interval)
    (fits : ∀ chunk ∈ chunks, chunk.length ≤ g.mechanism.mechanism.value.maxRequest) :
    o.result ≠ .error (.faulted .reseedLoop) := by
  induction filled with
  | nil g => exact nofun
  | stopped attempted _ => exact attempted.not_looped positive (fits _ (List.mem_cons_self ..))
  | cons attempted _ _ ih =>
    have properties := attempted.accrues Seeded.accrues_properties.logged
    obtain ⟨-, interval, -⟩ := Seeded.properties_eq_iff.mp properties
    have limit := congrArg Instantiation.maxRequest properties
    refine ih (interval ▸ positive) fun chunk member => ?_
    exact (fits chunk (List.mem_cons_of_mem _ member)).trans_eq limit.symm

/-- A request of a generator is cut at the limit of its mechanism and charged by its blocks. -/
structure ChargesBlocks (a : Algorithm) (size interval : ℕ) (g : Generator (Logged (Within (Seeded σ) ω)))
    (buffer : Bytes) (o : Outcome (Logged (Within (Seeded σ) ω))) (calls : List Exchange) : Prop where
  cut : g.chunkLength = a.maxRequest interval
  logged : o.generator.mechanism.exchanges = g.mechanism.exchanges ++ calls
  /-- What is charged are the blocks of some first chunks. -/
  front : ∃ count, a.charges calls = (buffer.take (count * g.chunkLength)).length ⌈/⌉ size
  /-- A request that succeeds is charged for every block once. -/
  whole (success : o.result = .ok ()) : a.charges calls = buffer.length ⌈/⌉ size
  /-- No chunk takes two reseeds in a row. -/
  notLooped : o.result ≠ .error (.faulted .reseedLoop)

theorem chargesBlocks {a : Algorithm} {size interval : ℕ} (fitted : a.FitsInterval size interval)
    (positive : 0 < interval) (algorithm : g.mechanism.mechanism.value.core.algorithm = a)
    (same : g.mechanism.mechanism.value.interval = interval) (buffer additional : Bytes) :
    ∃ calls, ChargesBlocks a size interval g buffer (g.fill buffer additional) calls := by
  have limit : Mechanism.maxRequest g.mechanism = a.maxRequest interval := by
    rw [← algorithm, ← same]
    rfl
  have cut : g.chunkLength = a.maxRequest interval := by
    rw [chunkLength, limit]
    exact max_eq_left fitted.positive
  have some : 0 < g.chunkLength := cut ▸ fitted.positive
  cases usable : g.faulted with
  | true =>
    rw [fill, if_pos usable]
    refine ⟨[], cut, (List.append_nil _).symm, ⟨0, ?_⟩, fun success => ?_, fun looped => ?_⟩
    · rw [Nat.zero_mul, List.take_zero, List.length_nil, ← blocksFor_eq_ceilDiv, blocksFor_zero]
      rfl
    · cases success
    · cases looped
  | false =>
    obtain ⟨calls, filled⟩ := fills additional (buffer.chunks g.chunkLength) g
    rw [← fill_of_usable usable] at filled
    obtain ⟨count, charged, all⟩ := filled.charged a
    have records : Records (Logged.exchanges (μ := Within (Seeded σ) ω)) :=
      ⟨fun _ _ _ _ => rfl, fun _ _ => rfl⟩
    refine ⟨calls, cut, filled.logged records, ⟨count, ?_⟩, fun success => ?_, ?_⟩
    · rw [charged, Bytes.take_chunks some, cut, fitted.additive]
    · rw [charged, all success, List.take_length, cut, fitted.additive]
    · refine filled.not_looped (same ▸ positive) fun chunk member => ?_
      have fits := Bytes.length_le_of_mem_chunks member
      rw [cut, ← limit] at fits
      exact fits

end Generator

/-- The limit of a Dual_EC_DRBG request is a positive number of whole blocks, at most 65536 bytes, and grows
with the reseed interval. It is the largest one that costs no more than the interval, and a buffer that is
cut at it costs one for each of its blocks. So a generator that cuts its requests there is charged for every block
once, and is never asked for a reseed again directly after one. -/
theorem Algorithm.limit_fits_interval {σ ω : Type} [SeedSource σ ω] (d : Digest) (c : Curve) {interval : ℕ}
    (positive : 1 ≤ interval) :
    (dualEc d c).FitsInterval c.outputLength interval ∧
      ∀ (g : Generator (Logged (Within (Seeded σ) ω))) (buffer additional : Bytes),
        g.mechanism.mechanism.value.core.algorithm = .dualEc d c →
          g.mechanism.mechanism.value.interval = interval →
            ∃ calls, g.ChargesBlocks (.dualEc d c) c.outputLength interval buffer
              (g.fill buffer additional) calls := by
  have fitted := fitsInterval d c positive
  exact ⟨fitted, fun g buffer additional algorithm same =>
    g.chargesBlocks fitted positive algorithm same buffer additional⟩

/-- P-256 under an interval of a single block puts out 31 bytes in two chunks, with a reseed between them. -/
theorem Algorithm.limit_fits_interval_single_block :
    let m : Seeded (List (Except EntropyFailure Bytes)) :=
      { core := .instantiate (.dualEc .sha256 .p256) (Bytes.zeros 32) [1] []
        source := [.ok (Bytes.zeros 32)]
        securityStrength := 128
        counter := 0
        interval := 1 }
    let g : Generator (Logged (Within (Seeded (List (Except EntropyFailure Bytes))) Unit)) :=
      ⟨⟨⟨m, ()⟩, []⟩, false, false, false⟩
    1 ≤ 1 ∧ (dualEc .sha256 .p256).FitsInterval 30 1 ∧ (dualEc .sha256 .p256).maxRequest 1 = 30 ∧
      m.core.algorithm = .dualEc .sha256 .p256 ∧ m.interval = 1 ∧
      (g.fill (Bytes.zeros 31) []).result = .ok () ∧
      ∃ calls, g.ChargesBlocks (.dualEc .sha256 .p256) 30 1 (Bytes.zeros 31) (g.fill (Bytes.zeros 31) [])
        calls ∧ (dualEc .sha256 .p256).charges calls = 2 := by
  intro m g
  obtain ⟨fitted, charged⟩ :=
    limit_fits_interval (σ := List (Except EntropyFailure Bytes)) (ω := Unit) .sha256 .p256 (le_refl 1)
  have served : (g.fill (Bytes.zeros 31) []).result = .ok () := by decide +kernel
  obtain ⟨calls, blocks⟩ := charged g (Bytes.zeros 31) [] rfl rfl
  refine ⟨le_rfl, fitted, rfl, rfl, rfl, served, calls, blocks, ?_⟩
  rw [blocks.whole served, ← blocksFor_eq_ceilDiv]
  rfl

end RandomBits

import Mathlib
import RandomBits.Proofs.WorkingStates

/-! # Partial blocks advance a core like full ones

A block that is begun counts as a block, however many of its bytes are asked for. Where a core
succeeds, it would have succeeded for fewer bytes as well and have put out the front of the same
output; and it is left in the same state by any two requests that end within the same block. Main
statement: `Core.partial_blocks_advance`.
-/

namespace RandomBits

/-- The state after a request depends on its number of blocks only. -/
private theorem emitBytes_congr {σ : Type} (step : σ → Bytes × σ) {size m n : ℕ} (s : σ)
    (same : blocksFor m size = blocksFor n size) :
    (emitBytes step size m s).2 = (emitBytes step size n s).2 := by
  simp only [emitBytes, same]

namespace DualEcDrbg

variable {c : Curve} {m n : ℕ} {g h : DualEcDrbg} {t last output : Bytes}

/-- A block without a fault has the output length of its curve. -/
theorem length_of_block {s : Bytes} (ran : block c t = .ok (output, s)) :
    output.length = c.outputLength := by
  obtain ⟨_, -, ran⟩ := bind_eq_ok_iff.mp ran
  obtain ⟨r, found, ran⟩ := bind_eq_ok_iff.mp ran
  obtain ⟨rfl, -⟩ := Prod.mk.inj (Except.ok.inj ran)
  have within := c.outputLength_le
  rw [List.length_drop, (Curve.isScalar_of_xOfQ found).length]
  omega

/-- Blocks without a fault begin with one that has none. -/
private theorem blocks_succ_eq_ok (ran : blocks c (n + 1) g t = (output, .ok last, h)) :
    ∃ first s rest, block c t = .ok (first, s) ∧ blocks c n g s = (rest, .ok last, h) ∧
      output = first ++ rest := by
  simp only [blocks] at ran
  cases began : block c t with
  | error fault =>
    rw [began] at ran
    cases ran
  | ok begun =>
    obtain ⟨first, s⟩ := begun
    rw [began] at ran
    obtain ⟨rfl, ended⟩ := Prod.mk.inj ran
    exact ⟨first, s, (blocks c n g s).1, rfl, Prod.ext rfl ended, rfl⟩

private theorem length_of_blocks (ran : blocks c n g t = (output, .ok last, h)) :
    output.length = n * c.outputLength := by
  induction n generalizing t output with
  | zero =>
    obtain ⟨rfl, -⟩ := Prod.mk.inj ran
    exact (Nat.zero_mul _).symm
  | succ n ih =>
    obtain ⟨first, s, rest, began, later, rfl⟩ := blocks_succ_eq_ok ran
    rw [List.length_append, length_of_block began, ih later, Nat.succ_mul, Nat.add_comm]

/-- Where blocks do not fault, neither do the first of them. -/
theorem blocks_of_add (ran : blocks c (m + n) g t = (output, .ok last, h)) :
    ∃ front middle rest, blocks c m g t = (front, .ok middle, g) ∧
      blocks c n g middle = (rest, .ok last, h) ∧ output = front ++ rest := by
  induction m generalizing t output with
  | zero =>
    rw [Nat.zero_add] at ran
    exact ⟨[], t, output, rfl, ran, rfl⟩
  | succ m ih =>
    rw [Nat.succ_add] at ran
    obtain ⟨first, s, rest, began, later, rfl⟩ := blocks_succ_eq_ok ran
    obtain ⟨front, middle, behind, before, after, rfl⟩ := ih later
    refine ⟨first ++ front, middle, behind, ?_, after, (List.append_assoc ..).symm⟩
    simp only [blocks, began, before]

/-- A scalar that blocks go on from can also end a request: its multiple of `P` was found once. -/
private theorem xOfP_of_blocks (some : 0 < n) (ran : blocks c n g t = (output, .ok last, h)) :
    ∃ s, c.xOfP t = .ok s := by
  obtain ⟨n, rfl⟩ := Nat.exists_eq_succ_of_ne_zero some.ne'
  obtain ⟨_, _, _, began, -, -⟩ := blocks_succ_eq_ok ran
  obtain ⟨s, found, -⟩ := bind_eq_ok_iff.mp began
  exact ⟨s, found⟩

variable {next : DualEcDrbg} {additional : Bytes}

/-- A request that does not fault has all its blocks and a last step to the next state. -/
private theorem blocks_of_generate (ran : g.generate n additional = (output, .ok (), next)) :
    ∃ whole t s, blocks g.curve (blocksFor n g.curve.outputLength) g (g.startScalar additional) =
        (whole, .ok t, g) ∧ g.curve.xOfP t = .ok s ∧ output = whole.take n ∧ next = { g with s } := by
  obtain ⟨s, stepped, rfl⟩ := moved_of_generate (congrArg Prod.snd ran)
  obtain ⟨t, walked, moved⟩ := bind_eq_ok_iff.mp stepped
  have put : output = _ := (congrArg Prod.fst ran).symm.trans (generate_fst g n additional)
  exact ⟨_, t, s, Prod.ext rfl (Prod.ext walked (blocks_state ..)), moved, put, rfl⟩

private theorem generate_of_blocks {whole t s : Bytes}
    (walked : blocks g.curve (blocksFor n g.curve.outputLength) g (g.startScalar additional) =
      (whole, .ok t, g)) (moved : g.curve.xOfP t = .ok s) :
    g.generate n additional = (whole.take n, .ok (), { g with s }) := by
  simp only [generate, walked, Except.bind, moved]

/-- A request for fewer bytes takes some of the same steps, the last one included. -/
theorem generate_of_shorter (shorter : m ≤ n)
    (ran : g.generate n additional = (output, .ok (), next)) :
    output.length = n ∧ ∃ earlier, g.generate m additional = (output.take m, .ok (), earlier) ∧
      (blocksFor m g.curve.outputLength = blocksFor n g.curve.outputLength → earlier = next) := by
  have positive := g.curve.outputLength_pos
  obtain ⟨whole, t, s, walked, moved, rfl, rfl⟩ := blocks_of_generate ran
  have covered : n ≤ whole.length := by
    rw [length_of_blocks walked]
    exact (blocksFor_le_iff positive).mp le_rfl
  refine ⟨List.length_take_of_le covered, ?_⟩
  obtain ⟨more, split⟩ := Nat.exists_eq_add_of_le (blocksFor_mono positive shorter)
  -- A request that stops blocks earlier takes the multiple of `P` that the next block would begin with.
  rcases Nat.eq_zero_or_pos more with rfl | some
  · rw [Nat.add_zero] at split
    rw [split] at walked
    refine ⟨{ g with s }, ?_, fun _ => rfl⟩
    rw [generate_of_blocks walked moved, List.take_take, min_eq_left shorter]
  · rw [split] at walked
    obtain ⟨front, middle, rest, before, after, rfl⟩ := blocks_of_add walked
    obtain ⟨earlier, stepped⟩ := xOfP_of_blocks some after
    have within : m ≤ front.length := by
      rw [length_of_blocks before]
      exact (blocksFor_le_iff positive).mp le_rfl
    refine ⟨{ g with s := earlier }, ?_, fun same => by omega⟩
    rw [generate_of_blocks before stepped, List.take_take, min_eq_left shorter,
      List.take_append_of_le_length within]

end DualEcDrbg

namespace Core

variable {c next : Core} {additional output : Bytes} {counter m n : ℕ}

/-- Where requests are counted, the state depends on the blocks that were begun. -/
theorem generate_congr (counts : c.algorithm.CountsRequests)
    (same : blocksFor m c.algorithm.blockLength = blocksFor n c.algorithm.blockLength) :
    (c.generate m additional counter).2 = (c.generate n additional counter).2 := by
  cases c with
  | hash s => rfl
  | hmac s =>
    have last (start : HmacDrbg) :
        (emitBytes HmacDrbg.outputStep s.digest.outputLength m start).2 =
          (emitBytes HmacDrbg.outputStep s.digest.outputLength n start).2 :=
      emitBytes_congr _ start same
    simp only [generate, HmacDrbg.generate, last]
  | ctr s =>
    have last (start : CtrDrbg) : (start.keyStream m).2 = (start.keyStream n).2 :=
      emitBytes_congr _ _ same
    simp only [generate, CtrDrbg.generate, last]
  | dualEc s => exact counts.elim

/-- Where requests are counted, no request fails, and each is given its front of the output. -/
theorem generate_of_shorter (counts : c.algorithm.CountsRequests) (shorter : m ≤ n)
    (ran : c.generate n additional counter = (output, .ok (), next)) :
    output.length = n ∧ ∃ earlier,
      c.generate m additional counter = (output.take m, .ok (), earlier) ∧
      (blocksFor m c.algorithm.blockLength = blocksFor n c.algorithm.blockLength →
        earlier = next) := by
  have length := length_generate n additional counter counts
  have front := generate_take additional counter counts shorter
  obtain ⟨written, earlier, served, -⟩ := generate_ok m additional counter counts
  rw [ran] at length front
  rw [served] at front
  obtain rfl : written = output.take m := front
  refine ⟨length, earlier, served, fun same => ?_⟩
  have last : (c.generate m additional counter).2 = (c.generate n additional counter).2 :=
    generate_congr counts same
  rw [served, ran] at last
  exact (Prod.mk.inj last).2

/-- Hash_DRBG moves on by a sum in which the length of the output does not occur. -/
private theorem generate_hash_congr (s : HashDrbg) (additional : Bytes) (counter m n : ℕ) :
    ((hash s).generate m additional counter).2 = ((hash s).generate n additional counter).2 := rfl

private theorem blockBits_div (a : Algorithm) : a.blockBits / 8 = a.blockLength :=
  Nat.mul_div_cancel_left _ (by decide)

/-- Partial blocks advance a core like full ones. From any state, whatever the additional input and the
counter: where `n` bytes are put out, so are `m` of them, which are the first ones, and the state
afterwards is the same if both requests begin equally many blocks. For Hash_DRBG it is always the
same. -/
theorem partial_blocks_advance (c : Core) (additional : Bytes) (counter : ℕ) :
    (∀ (m n : ℕ) (output : Bytes) (next : Core), m ≤ n →
      c.generate n additional counter = (output, .ok (), next) →
        output.length = n ∧ ∃ earlier,
          c.generate m additional counter = (output.take m, .ok (), earlier) ∧
            (blocksFor m (c.algorithm.blockBits / 8) = blocksFor n (c.algorithm.blockBits / 8) →
              earlier = next)) ∧
      ∀ d, c.algorithm = .hash d → ∀ m n : ℕ,
        (c.generate m additional counter).2 = (c.generate n additional counter).2 := by
  constructor
  · intro m n output next shorter ran
    rw [blockBits_div]
    cases c with
    | hash s | hmac s | ctr s => exact generate_of_shorter trivial shorter ran
    | dualEc g =>
      rcases asked : g.generate n additional with ⟨put, result, h⟩
      simp only [generate, asked, Prod.mk.injEq] at ran
      obtain ⟨rfl, rfl, rfl⟩ := ran
      obtain ⟨length, earlier, served, same⟩ := DualEcDrbg.generate_of_shorter shorter asked
      refine ⟨length, .dualEc earlier, ?_, fun blocks => congrArg dualEc (same blocks)⟩
      simp only [generate, served]
  · intro d hash m n
    cases c with
    | hash s => exact generate_hash_congr s additional counter m n
    | hmac s | ctr s | dualEc s => cases hash

/-- P-256 puts out 40 bytes of the 50 that it has for two blocks, and is left in the same state. -/
theorem partial_blocks_advance_second_block :
    let c := instantiate (.dualEc .sha256 .p256) (List.replicate 32 9) [1, 2] []
    ∃ output next, 40 ≤ 50 ∧ c.generate 50 [3] 1 = (output, .ok (), next) ∧ output.length = 50 ∧
      c.generate 40 [3] 1 = (output.take 40, .ok (), next) := by
  intro c
  have served : (c.generate 50 [3] 1).2.1.toBool = true := by decide +kernel
  rcases ran : c.generate 50 [3] 1 with ⟨output, fault | u, next⟩
  · rw [ran] at served
    cases served
  · obtain ⟨length, earlier, fewer, same⟩ :=
      (partial_blocks_advance c [3] 1).1 40 50 output next (by decide) ran
    obtain rfl := same (by decide +kernel)
    exact ⟨output, earlier, by decide, rfl, length, fewer⟩

end Core

end RandomBits

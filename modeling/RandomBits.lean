import RandomBits.Aes.Cipher
import RandomBits.Aes.Derivation
import RandomBits.Aes.Field
import RandomBits.Aes.State
import RandomBits.Builder
import RandomBits.Bytes.Arithmetic
import RandomBits.Bytes.Basic
import RandomBits.Bytes.Stream
import RandomBits.Core.Basic
import RandomBits.Core.CtrDrbg
import RandomBits.Core.DualEcDrbg
import RandomBits.Core.HashDrbg
import RandomBits.Core.HmacDrbg
import RandomBits.Curve.Basic
import RandomBits.Curve.Multiple
import RandomBits.Curve.Point
import RandomBits.Digest.Basic
import RandomBits.Digest.Compression
import RandomBits.Digest.Derivation
import RandomBits.Digest.Mac
import RandomBits.Digest.Root
import RandomBits.Digest.Word
import RandomBits.Entropy.Basic
import RandomBits.Entropy.Pattern
import RandomBits.Entropy.Playback
import RandomBits.Entropy.Pooled
import RandomBits.Failure
import RandomBits.Fault
import RandomBits.Generator.Basic
import RandomBits.Generator.Event
import RandomBits.Generator.Operation
import RandomBits.Mechanism.Basic
import RandomBits.Mechanism.Plan
import RandomBits.Mechanism.Scripted
import RandomBits.Mechanism.Seeded
import RandomBits.Proofs.Chunks
import RandomBits.Proofs.Cores
import RandomBits.Proofs.Seeding
import RandomBits.Proofs.Value
import RandomBits.Session
import RandomBits.Proofs.ReseedCounter
import RandomBits.Proofs.Attempts
import RandomBits.Proofs.Poisoning
import RandomBits.Proofs.Validation
import RandomBits.Proofs.Dependability
import RandomBits.Proofs.Endurance
import RandomBits.Proofs.Settling
import RandomBits.Proofs.Resumption
import RandomBits.Proofs.Splitting
import RandomBits.Proofs.CallProtocol
import RandomBits.Proofs.Building
import RandomBits.Proofs.PredictionResistance
import RandomBits.Proofs.Output
import RandomBits.Proofs.Extension
import RandomBits.Proofs.Likeness
import RandomBits.Proofs.Coupling
import RandomBits.Proofs.Tally
import RandomBits.Proofs.Secrecy
import RandomBits.Proofs.Independence
import RandomBits.Proofs.EntropySchedule
import RandomBits.Proofs.Arithmetic
import RandomBits.Proofs.Streams
import RandomBits.Proofs.Derivation
import RandomBits.Proofs.WorkingStates
import RandomBits.Proofs.HashNumbers
import RandomBits.Proofs.KeyedCounter
import RandomBits.Proofs.MessageChain
import RandomBits.Proofs.ScalarWalk
import RandomBits.Proofs.LeftmostBits
import RandomBits.Proofs.BlockChaining
import RandomBits.Proofs.Atomicity
import RandomBits.Proofs.Instantiation
import RandomBits.Proofs.BlockPermutation
import RandomBits.Proofs.FreshInputs
import RandomBits.Proofs.PartialBlocks
import RandomBits.Proofs.Inquiry
import RandomBits.Proofs.AuxiliaryInput
import RandomBits.Proofs.SeedMaterial
import RandomBits.Proofs.Framing
import RandomBits.Proofs.LeftAlignment
import RandomBits.Proofs.Bounds
import RandomBits.Proofs.BoundedDerivation
import RandomBits.Proofs.BoundedCores
import RandomBits.Proofs.Reduction
import RandomBits.Proofs.ScalarRange
import RandomBits.Proofs.ModularSums
import RandomBits.Proofs.RequestLimits

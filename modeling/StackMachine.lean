import StackMachine.Main
import StackMachine.Proofs.Encoding
import StackMachine.Proofs.Splitting
import StackMachine.Proofs.Transition
import StackMachine.Proofs.Frame
import StackMachine.Proofs.Traps
import StackMachine.Proofs.LowBits
import StackMachine.Proofs.Residues
import StackMachine.Proofs.Depth
import StackMachine.Proofs.Congruence
import StackMachine.Proofs.Refusals
import StackMachine.Proofs.Log
import StackMachine.Proofs.TrapCount
import StackMachine.Proofs.SignedDivision
import StackMachine.Proofs.Shifts
import StackMachine.Proofs.Rotations
import StackMachine.Proofs.Turns
import StackMachine.Proofs.Reduction
import StackMachine.Proofs.RotatedRemainders
import StackMachine.Proofs.UnsignedDivision
import StackMachine.Proofs.Overturns
import StackMachine.Proofs.QuotientOverflow
import StackMachine.Proofs.BitCounts
import StackMachine.Proofs.ShiftLimits
import StackMachine.Proofs.PowersOfTwo
import StackMachine.Proofs.BitIdentities
import StackMachine.Proofs.Widthless
import StackMachine.Proofs.Orders
import StackMachine.Proofs.Resolution

import ChipEight.Main
import ChipEight.Proofs.CommandLine.Precedence
import ChipEight.Proofs.CommandLine.Status
import ChipEight.Proofs.Config.Merging
import ChipEight.Proofs.Config.Saving
import ChipEight.Proofs.Host.Frames
import ChipEight.Proofs.Host.Keyboard
import ChipEight.Proofs.Host.Projection
import ChipEight.Proofs.Host.Replay
import ChipEight.Proofs.Host.Views
import ChipEight.Proofs.Machine.Arithmetic
import ChipEight.Proofs.Machine.Atomicity
import ChipEight.Proofs.Machine.Collision
import ChipEight.Proofs.Machine.Imprint
import ChipEight.Proofs.Machine.Listing
import ChipEight.Proofs.Machine.Resetting
import ChipEight.Proofs.Machine.Storage
import ChipEight.Proofs.Machine.Subroutine
import ChipEight.Proofs.Machine.Tracing
import ChipEight.Proofs.Machine.Transfer
import ChipEight.Proofs.Machine.Waiting
import ChipEight.Proofs.Session.Beeper
import ChipEight.Proofs.Session.Pacing
import ChipEight.Proofs.Session.Timekeeping
import ChipEight.Proofs.Session.Unseen

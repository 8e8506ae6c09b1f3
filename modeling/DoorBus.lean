import DoorBus.Bench.HostEnd
import DoorBus.Bench.Loop
import DoorBus.Bench.Recorder
import DoorBus.Bench.Script
import DoorBus.Config.Stored
import DoorBus.Host.Firmware
import DoorBus.Bench.Rig
import DoorBus.Proofs.Wire.Delivery
import DoorBus.Proofs.Wire.Recogniser
import DoorBus.Proofs.Agent.DriveRequest
import DoorBus.Proofs.Master.Snapshot
import DoorBus.Proofs.Master.Offset
import DoorBus.Proofs.Mailbox.StatusWord
import DoorBus.Proofs.Agent.Exchange
import DoorBus.Proofs.Agent.Slot
import DoorBus.Proofs.Agent.View
import DoorBus.Proofs.Master.Silence
import DoorBus.Proofs.Agent.Logbook
import DoorBus.Proofs.Agent.Cadence
import DoorBus.Proofs.Agent.Wake
import DoorBus.Proofs.Host.Selection
import DoorBus.Proofs.Bench.Door
import DoorBus.Proofs.Message.Image
import DoorBus.Proofs.Agent.Begun
import DoorBus.Proofs.Bench.Drive
import DoorBus.Proofs.Bench.Line
import DoorBus.Proofs.Bench.Quiet
import DoorBus.Proofs.Bench.Trial
import DoorBus.Proofs.Bench.Speech
import DoorBus.Proofs.Bench.Health
import DoorBus.Proofs.Wire.Corruption
import DoorBus.Proofs.Wire.Waiting
import DoorBus.Proofs.Mailbox.Lossless
import DoorBus.Proofs.Master.Faults
import DoorBus.Proofs.Host.Bridge
import DoorBus.Proofs.Host.Calls
import DoorBus.Proofs.Master.Identification
import DoorBus.Proofs.Agent.WireTime
import DoorBus.Proofs.Bench.Answers
import DoorBus.Proofs.Bench.Travel
import DoorBus.Proofs.Bench.Backlog
import DoorBus.Proofs.Config.Stored

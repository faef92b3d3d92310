import PWSat2OBC.Lib.Bits
import PWSat2OBC.Lib.BlockStore
import PWSat2OBC.Lib.Chunks
import PWSat2OBC.Lib.Endian
import PWSat2OBC.Lib.Loops
import PWSat2OBC.Lib.Memory
import PWSat2OBC.Lib.Packets
import PWSat2OBC.Lib.PairParity
import PWSat2OBC.Lib.Patrol
import PWSat2OBC.Lib.Reassembly
import PWSat2OBC.Lib.Runs
import PWSat2OBC.Lib.Sequences
import PWSat2OBC.Lib.TornWrites
import PWSat2OBC.Lib.Vote
import PWSat2OBC.Lib.Windows
import PWSat2OBC.Proof.AdcsCoordinator
import PWSat2OBC.Proof.Antenna
import PWSat2OBC.Proof.ApplicationLoad
import PWSat2OBC.Proof.Beacon
import PWSat2OBC.Proof.BeaconParser
import PWSat2OBC.Proof.BeaconRoundTrip
import PWSat2OBC.Proof.BitWriter
import PWSat2OBC.Proof.Boot
import PWSat2OBC.Proof.BootPlan
import PWSat2OBC.Proof.BootSettings
import PWSat2OBC.Proof.BootTable
import PWSat2OBC.Proof.ClockTicks
import PWSat2OBC.Proof.CommReceive
import PWSat2OBC.Proof.CommTask
import PWSat2OBC.Proof.CommTransmit
import PWSat2OBC.Proof.CopyBootSlots
import PWSat2OBC.Proof.CopyScrubber
import PWSat2OBC.Proof.DeploySolarArray
import PWSat2OBC.Proof.Deployment
import PWSat2OBC.Proof.Downlink
import PWSat2OBC.Proof.Ecc
import PWSat2OBC.Proof.ErrorCounter
import PWSat2OBC.Proof.ErrorCounterConfig
import PWSat2OBC.Proof.ExperimentController
import PWSat2OBC.Proof.ExperimentFile
import PWSat2OBC.Proof.ExperimentPacing
import PWSat2OBC.Proof.ExperimentTelecommands
import PWSat2OBC.Proof.Experiments
import PWSat2OBC.Proof.Fdir
import PWSat2OBC.Proof.FdirPersistence
import PWSat2OBC.Proof.FileCopy
import PWSat2OBC.Proof.FileDownload
import PWSat2OBC.Proof.FileList
import PWSat2OBC.Proof.FilePaths
import PWSat2OBC.Proof.Fram
import PWSat2OBC.Proof.GroundFiles
import PWSat2OBC.Proof.GroundSettings
import PWSat2OBC.Proof.I2CErrorHandling
import PWSat2OBC.Proof.I2CTransfer
import PWSat2OBC.Proof.MakeDirectory
import PWSat2OBC.Proof.MissionLogic
import PWSat2OBC.Proof.MissionLoop
import PWSat2OBC.Proof.MissionTime
import PWSat2OBC.Proof.N25Q
import PWSat2OBC.Proof.N25QYaffs
import PWSat2OBC.Proof.Nand
import PWSat2OBC.Proof.OpenSail
import PWSat2OBC.Proof.PackedTags
import PWSat2OBC.Proof.PeriodicMessage
import PWSat2OBC.Proof.PersistentState
import PWSat2OBC.Proof.PhotoDownload
import PWSat2OBC.Proof.PhotoService
import PWSat2OBC.Proof.PhotoTask
import PWSat2OBC.Proof.PhotoTelecommands
import PWSat2OBC.Proof.PowerCycle
import PWSat2OBC.Proof.ProgramFlash
import PWSat2OBC.Proof.ProgramLife
import PWSat2OBC.Proof.ProgramUpload
import PWSat2OBC.Proof.RadFETExperiment
import PWSat2OBC.Proof.ReadMemory
import PWSat2OBC.Proof.Reader
import PWSat2OBC.Proof.ReaderRuns
import PWSat2OBC.Proof.Redundancy
import PWSat2OBC.Proof.RedundantN25Q
import PWSat2OBC.Proof.SailExperiment
import PWSat2OBC.Proof.Scrubber
import PWSat2OBC.Proof.StateSaving
import PWSat2OBC.Proof.SunSExperiment
import PWSat2OBC.Proof.Telecommands
import PWSat2OBC.Proof.TelemetryTask
import PWSat2OBC.Proof.TimeCorrection
import PWSat2OBC.Proof.TimeCounter
import PWSat2OBC.Proof.TimePoint
import PWSat2OBC.Proof.Uplink
import PWSat2OBC.Proof.UploadRuns
import PWSat2OBC.Proof.UploadSoftware
import PWSat2OBC.Proof.Writer
import PWSat2OBC.Proof.WriterRuns
import PWSat2OBC.Proof.Xmodem
import PWSat2OBC.Spec.AdcsCoordinator
import PWSat2OBC.Spec.Antenna
import PWSat2OBC.Spec.ApplicationLoad
import PWSat2OBC.Spec.BeaconParser
import PWSat2OBC.Spec.BitWriter
import PWSat2OBC.Spec.Boot
import PWSat2OBC.Spec.BootSettings
import PWSat2OBC.Spec.BootTable
import PWSat2OBC.Spec.Comm
import PWSat2OBC.Spec.CommTask
import PWSat2OBC.Spec.CopyBootSlots
import PWSat2OBC.Spec.CopyScrubber
import PWSat2OBC.Spec.DeploySolarArray
import PWSat2OBC.Spec.Deployment
import PWSat2OBC.Spec.Downlink
import PWSat2OBC.Spec.Ecc
import PWSat2OBC.Spec.ErrorCounter
import PWSat2OBC.Spec.ErrorCounterConfig
import PWSat2OBC.Spec.ExperimentController
import PWSat2OBC.Spec.ExperimentFile
import PWSat2OBC.Spec.ExperimentTelecommands
import PWSat2OBC.Spec.Experiments
import PWSat2OBC.Spec.Fdir
import PWSat2OBC.Spec.FdirPersistence
import PWSat2OBC.Spec.FileTelecommands
import PWSat2OBC.Spec.Fram
import PWSat2OBC.Spec.GroundFiles
import PWSat2OBC.Spec.GroundSettings
import PWSat2OBC.Spec.I2C
import PWSat2OBC.Spec.I2CErrorHandling
import PWSat2OBC.Spec.MissionLogic
import PWSat2OBC.Spec.MissionLoop
import PWSat2OBC.Spec.MissionTime
import PWSat2OBC.Spec.N25Q
import PWSat2OBC.Spec.N25QYaffs
import PWSat2OBC.Spec.Nand
import PWSat2OBC.Spec.OpenSail
import PWSat2OBC.Spec.PackedTags
import PWSat2OBC.Spec.PersistentState
import PWSat2OBC.Spec.PhotoService
import PWSat2OBC.Spec.PhotoTask
import PWSat2OBC.Spec.PowerCycle
import PWSat2OBC.Spec.ProgramFlash
import PWSat2OBC.Spec.ProgramLife
import PWSat2OBC.Spec.ProgramUpload
import PWSat2OBC.Spec.ReadMemory
import PWSat2OBC.Spec.Reader
import PWSat2OBC.Spec.ReaderRuns
import PWSat2OBC.Spec.Redundancy
import PWSat2OBC.Spec.RedundantN25Q
import PWSat2OBC.Spec.SailExperiment
import PWSat2OBC.Spec.Scrubber
import PWSat2OBC.Spec.SensorExperiments
import PWSat2OBC.Spec.StateSaving
import PWSat2OBC.Spec.Telecommands
import PWSat2OBC.Spec.Telemetry
import PWSat2OBC.Spec.TelemetryTask
import PWSat2OBC.Spec.TimeCounter
import PWSat2OBC.Spec.TimePoint
import PWSat2OBC.Spec.Uplink
import PWSat2OBC.Spec.UploadSoftware
import PWSat2OBC.Spec.Writer
import PWSat2OBC.Spec.WriterRuns
import PWSat2OBC.Spec.Xmodem
import PWSat2OBC.Spec.Yaffs

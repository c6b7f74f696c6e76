import SimuSound.Reasoning.Interaction
import SimuSound.Reasoning.ErrorReporting
import SimuSound.Reasoning.BitField
import SimuSound.Reasoning.Transition
import SimuSound.Reasoning.Framing
import SimuSound.Reasoning.Mutex
import SimuSound.Reasoning.SignedWord
import SimuSound.Reasoning.Conversion
import SimuSound.Reasoning.Failing
import SimuSound.Remote.BtThread
import SimuSound.Remote.Mailbox
import SimuSound.Remote.Relay
import SimuSound.Camera.MipiPool
import SimuSound.Camera.FrameCopy
import SimuSound.Camera.UsbCapture
import SimuSound.Imu.Registers
import SimuSound.Imu.Bus
import SimuSound.Imu.Power
import SimuSound.Imu.Interrupts
import SimuSound.Imu.Sensors
import SimuSound.Imu.Fifo
import SimuSound.Imu.I2cMaster
import SimuSound.Imu.DmpMemory
import SimuSound.Imu.DmpSensors
import SimuSound.Imu.Object
import SimuSound.Imu.StatusMember
import SimuSound.Imu.StatusSoundness
import SimuSound.Imu.RegisterFile
import SimuSound.Imu.Bringup
import SimuSound.Imu.FullScale
import SimuSound.Imu.Interference
import SimuSound.Imu.BankCache
import SimuSound.Imu.MemoryPort
import SimuSound.Imu.MemoryRange
import SimuSound.Imu.FirmwareImage
import SimuSound.Imu.FirmwareStatus
import SimuSound.Imu.FirmwareChunks
import SimuSound.Imu.FifoStream
import SimuSound.Imu.FifoBounds
import SimuSound.Imu.DmpFraming
import SimuSound.Imu.DmpRetry
import SimuSound.Imu.DmpFields
import SimuSound.Imu.Uninitialised
import SimuSound.Imu.ControlFields
import SimuSound.Imu.MagStartup
import SimuSound.Imu.Periph4Polling
import SimuSound.Imu.SampleRate
import SimuSound.Imu.SensorSets
import SimuSound.Imu.SensorTable
import SimuSound.Imu.SensorRollback
import SimuSound.Imu.SensorEnables
import SimuSound.Stereo.MapFile
import SimuSound.Stereo.Undistort
import SimuSound.Stereo.DisparityRoi
import SimuSound.Detection.Letterbox
import SimuSound.Detection.Decode
import SimuSound.Imu.SpiLink
import SimuSound.Imu.SpiBringup
import SimuSound.Reasoning.Overlay
import SimuSound.Reasoning.Triple
import SimuSound.Imu.DmpWrites
import SimuSound.Imu.DmpInitialize
import SimuSound.Imu.GyroScale
import SimuSound.Camera.PoolThreads
import SimuSound.Remote.EndToEnd
import SimuSound.Imu.InterruptSettings
import SimuSound.Imu.Polling
import SimuSound.Detection.BoxDrawing
import SimuSound.Detection.Lifecycle
import SimuSound.Imu.DmpVerdict

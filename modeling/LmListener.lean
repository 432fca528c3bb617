import LmListener.FrameBuffers
import LmListener.FrameSafety
import LmListener.HeaderBounds
import LmListener.HeaderCodec
import LmListener.OneOutput
import LmListener.QueueRuns
import LmListener.ReceiveSize
import LmListener.RemoteAddr
import LmListener.SetupApplied
import LmListener.SendBuffer
import LmListener.Shutdown
import LmListener.SpiBounds
import LmListener.SpiHistory
import LmListener.SpiSend
import LmListener.SpiTransmission
import LmListener.StaleBytes
import LmListener.Stopping
import LmListener.Strip
import LmListener.TypeHistory
import LmListener.TypeMessages
import LmListener.WriteCalls
import LmListener.WriteDevices
import LmListener.FrameCodec
import LmListener.Shield
import LmListener.Wall
import LmListener.Descriptors
import LmListener.ProgramWall
import LmListener.Router
import LmListener.Duplicates

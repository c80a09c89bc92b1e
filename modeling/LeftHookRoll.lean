import LeftHookRoll.StoreRefine
import LeftHookRoll.BuildResponse
import LeftHookRoll.SendStream
import LeftHookRoll.CgiOutput
import LeftHookRoll.CutOutcome
import LeftHookRoll.StaticScript
import LeftHookRoll.PathInside
import LeftHookRoll.CountedBody
import LeftHookRoll.ChunkAccept
import LeftHookRoll.CgiProcesses
import LeftHookRoll.ConnectionFrame
import LeftHookRoll.ServerReach
import LeftHookRoll.StatusLine
import LeftHookRoll.ConfigNumbers
import LeftHookRoll.ScriptAnswer
import LeftHookRoll.Rejection
import LeftHookRoll.ConfigAccept
import LeftHookRoll.ConfigLayout
import LeftHookRoll.StoreFailure
import LeftHookRoll.SendFile
import LeftHookRoll.SendBlocked
import LeftHookRoll.Upload
import LeftHookRoll.Cookies
import LeftHookRoll.ScriptPath
import LeftHookRoll.CgiEnvironment
import LeftHookRoll.AutoIndex
import LeftHookRoll.ReadLimit
import LeftHookRoll.ServerQueue
import LeftHookRoll.ServerSweep
import LeftHookRoll.HeaderLines
import LeftHookRoll.ContentLength
import LeftHookRoll.ServerSetup
import LeftHookRoll.ServerOrder
import LeftHookRoll.ServerLifetime

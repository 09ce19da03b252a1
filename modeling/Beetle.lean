import Beetle.Audio.BargeIn
import Beetle.Audio.SpokenOnce
import Beetle.BgTimerRuns
import Beetle.BusDepth
import Beetle.Calendar.CaldavReport
import Beetle.Calendar.IcalSafety
import Beetle.Channels.DeferredBuffer
import Beetle.Channels.DispatchOrder
import Beetle.Channels.Feishu.Ws
import Beetle.Channels.Qq.SendRuns
import Beetle.Channels.ReplayPass
import Beetle.Channels.Telegram.Html
import Beetle.Channels.Telegram.PollKept
import Beetle.ChatStreamRuns
import Beetle.Llm.AnthropicAgreement
import Beetle.Llm.OpenAiStream
import Beetle.Llm.RequestBody
import Beetle.Memory.ArchiveRebuild
import Beetle.Memory.ContextWindowCurrent
import Beetle.Memory.LlmJson
import Beetle.Network.ExternalWss
import Beetle.Network.HttpPermit
import Beetle.Orchestrator.RuntimeCapabilityDisabled
import Beetle.Orchestrator.RuntimeCapabilityDraining
import Beetle.Platform.DetachedWorkStore
import Beetle.Platform.LongTermMemoryFaults
import Beetle.Platform.PrivateGardenMap
import Beetle.Platform.SessionRace
import Beetle.Platform.SessionRecovery
import Beetle.Platform.SpeakerPathRuns
import Beetle.Platform.TaskLedgerTorn
import Beetle.Platform.TaskStore
import Beetle.Runtime.DelayedTaskBound
import Beetle.Runtime.LeaseSafety
import Beetle.Runtime.WriteBack.NoStrandedWrite
import Beetle.Runtime.WriteBack.SchedulerWake
import Beetle.Runtime.WriteBack.SessionRefusal
import Beetle.Runtime.WriteBack.TurnLedgerReads
import Beetle.ScrubCredentials
import Beetle.Tools.CronField
import Beetle.Tools.HttpRequest
import Beetle.Tools.KvStore
import Beetle.Tools.RemindAtMoves
import Beetle.Tools.RemindAtRestarts
import Beetle.Tools.SensorWatchRuns
import Beetle.Wss.Receiving
import Beetle.Wss.Stream
import Beetle.Wss.UpgradeAgreement
import Beetle.Memory.LongTermBounds
import Beetle.Memory.LongTermSelect
import Beetle.Platform.TaskArtifactsListing
import Beetle.QueryEncoding
import Beetle.Reasoning.StateMachineNames
import Beetle.RemoveSubstrings
import Beetle.Tools.Iso8601
import Beetle.ErrorStages
import Beetle.Platform.AudioRing
import Beetle.Platform.ByteBufferMemory
import Beetle.Channels.Telegram.Mentions
import Beetle.Memory.PrivateDocs
import Beetle.Wss.Accept

import XiaoO.Backend.Slots
import XiaoO.Backend.SessionIndex
import XiaoO.Backend.Removals
import XiaoO.Backend.Orphans
import XiaoO.Backend.SlotKeys
import XiaoO.Backend.RemoteScripts
import XiaoO.Backend.E2bProcess
import XiaoO.Backend.LeasedBackends
import XiaoO.Backend.Bookkeeping
import XiaoO.Operation.LocalFileSystem
import XiaoO.Operation.SandboxMounts
import XiaoO.ProcessCoordination.Overtaking
import XiaoO.Gateway.StaleSaves
import XiaoO.Gateway.ForceClose
import XiaoO.Gateway.JoinWakeup
import XiaoO.Gateway.SnapshotLiveness
import XiaoO.Gateway.LosslessEviction
import XiaoO.Gateway.AutoApproval
import XiaoO.Gateway.LastingGrants
import XiaoO.Gateway.IdleCancel
import XiaoO.Gateway.Reaper
import XiaoO.Gateway.Pausing
import XiaoO.Gateway.RemoteText
import XiaoO.SessionDiff.RemoteTotals
import XiaoO.Tool.UnchangedReads
import XiaoO.Tool.EditTarget
import XiaoO.Tool.ToolCall
import XiaoO.Tool.WebFetch
import XiaoO.Tool.GrepCount
import XiaoO.JsonRpc.Answers
import XiaoO.Lsp.Writes
import XiaoO.Lsp.Locations
import XiaoO.LlmClient.StreamedAnswer
import XiaoO.LlmClient.Requests
import XiaoO.LlmClient.RateLimit
import XiaoO.LlmClient.Gemini
import XiaoO.LlmClient.Redaction
import XiaoO.LlmClient.AnthropicAgreement
import XiaoO.Conversation.CallIds
import XiaoO.Conversation.LoopBounds
import XiaoO.Conversation.TokenCache
import XiaoO.Conversation.ToolOutput
import XiaoO.Conversation.Summary
import XiaoO.Conversation.ToolResults
import XiaoO.Vault.InstanceKey

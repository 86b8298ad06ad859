import LlmHoneypot.Downloader.Http
import LlmHoneypot.Uptime
import LlmHoneypot.Providers.LangChain
import LlmHoneypot.Providers.OAuth
import LlmHoneypot.Protocol.Answer
import LlmHoneypot.Protocol.Transcript
import LlmHoneypot.Protocol.Attribution
import LlmHoneypot.Protocol.Budgets
import LlmHoneypot.Protocol.Conversation
import LlmHoneypot.Protocol.FileCommands
import LlmHoneypot.LocalAnswers
import LlmHoneypot.Downloader.Redaction
import LlmHoneypot.Downloader.Arguments
import LlmHoneypot.Shell.Descriptors
import LlmHoneypot.Shell.Completion
import LlmHoneypot.SshProxy.Uploads
import LlmHoneypot.SshProxy.Channels
import LlmHoneypot.SshProxy.Delivery
import LlmHoneypot.SshProxy.Readline
import LlmHoneypot.Scp.Trees
import LlmHoneypot.Protocol.Keystrokes
import LlmHoneypot.Providers.Completion
import LlmHoneypot.Providers.Fallback
import LlmHoneypot.Core.RateLimiter
import LlmHoneypot.Core.EventLog
import LlmHoneypot.BackendPool.Nat
import LlmHoneypot.BackendPool.Accounting
import LlmHoneypot.BackendPool.GuestIds
import LlmHoneypot.BackendPool.Recovery
import LlmHoneypot.BackendPool.Wire
import LlmHoneypot.TelnetProxy.Credentials
import LlmHoneypot.TelnetProxy.Recording
import LlmHoneypot.Protocol.FirstSegments
import LlmHoneypot.Commands.Chmod
import LlmHoneypot.Tftp.Progress
import LlmHoneypot.Tftp.Transfer
import LlmHoneypot.Ssh.TunnelChannel
import LlmHoneypot.Core.AuthRandom
import LlmHoneypot.Core.UserDB
import LlmHoneypot.Homes
import LlmHoneypot.Commands.Tee
import LlmHoneypot.Shell.Redirects
import LlmHoneypot.Shell.FileTransfer
import LlmHoneypot.Telnet.NewEnviron
import LlmHoneypot.Scripts.Replay
import LlmHoneypot.Commands.Cut
import LlmHoneypot.Commands.Echo
import LlmHoneypot.Protocol.TypedBytes
import LlmHoneypot.Shell.TabKey
import LlmHoneypot.FactKeys
import LlmHoneypot.Interactive.Pager
import LlmHoneypot.Core.Ja4h
import LlmHoneypot.DnsVetting

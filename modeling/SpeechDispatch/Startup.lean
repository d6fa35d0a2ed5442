import SpeechDispatch.Net.Address
import SpeechDispatch.Queue.Setup

/-!
# Starting up

What has to succeed before the dispatcher runs: the log has a known format, metrics are served if they are wanted, and
the message queue is there.  The first failure counts.
-/

namespace SpeechDispatch

/-- Why the dispatcher does not start. -/
inductive StartFault
  | logFormat (word : String)
  | metricsAddress (address : String)
  | metricsServer
  | queue (error : DispatchError)
  deriving DecidableEq

/-- The messages of a fault, the outermost first. -/
def StartFault.messages : StartFault → List String
  | logFormat word => [s!"不支持的日志格式: {word}"]
  | metricsAddress address => [s!"无效的指标监听地址: {address}"]
  | metricsServer => ["Failed to install Prometheus exporter"]
  | queue error => ["连接消息队列失败", error.message]

/-- What the dispatcher meets when it starts. -/
structure Surroundings where
  /-- Whether metrics can be served at a socket address. -/
  servesMetrics : String → Bool
  /-- What comes of connecting to a broker. -/
  connect : QueueSettings → Except DispatchError Unit

namespace Surroundings

/-- No address can be listened on and no broker answers. -/
def isolated : Surroundings := ⟨fun _ => false, fun _ => .error (.messageQueue .connect)⟩

/-- Serves metrics at an address. -/
def serve (s : Surroundings) (address : String) : Except StartFault Unit :=
  if !Net.isSocketAddress address then .error (.metricsAddress address)
  else if s.servesMetrics address then .ok ()
  else .error .metricsServer

/-- Makes the message queue that settings ask for. -/
def openQueue (s : Surroundings) (settings : QueueSettings) : Except DispatchError Unit := do
  settings.checkSetup
  if settings.kind = .rabbitmq then s.connect settings

/-- Starts the dispatcher; also gives the line of the log that says what is connected to, if it comes to that. -/
def start (s : Surroundings) (settings : Settings) : Option String × Except StartFault Unit :=
  let metrics : Except StartFault Unit :=
    if settings.observability.metricsEnabled then s.serve settings.observability.metricsBindAddress else .ok ()
  match metrics with
  | .error fault => (none, .error fault)
  | .ok () => (some (connectLine settings.messageQueue), (s.openQueue settings.messageQueue).mapError .queue)

end Surroundings

/-- Checks the word for a log format, which is not in capitals here. -/
def checkLogFormat (word : String) : Except StartFault Unit :=
  if (LogFormat.ofWord? word).isSome then .ok () else .error (.logFormat word)

end SpeechDispatch

import SpeechDispatch.Instant
import SpeechDispatch.Text.Quoted

/-!
# What can go wrong in a dispatch

An error is its cause; `DispatchError.message` words it.  An error of the message level concerns one message only:
the message is dropped and the dispatcher goes on.
-/

namespace SpeechDispatch

/-- Why a task cannot be accepted or started. -/
inductive TaskFault
  | missingId
  | missingType (id : String)
  | missingPayload (id : String)
  | alreadyStarted (id : String) (worker : Option String)
  | other (text : String)
  deriving DecidableEq

/-- Why a message that can be read is still no message of the dispatcher. -/
inductive ProtocolFault
  | unknownKind (text : String)
  | missingQueue
  | badTimestamp (seconds : Int)
  | missingItemId
  | missingProfile (id : String)
  | missingCorrelation
  | other (text : String)
  deriving DecidableEq

/-- Why a message queue did not do what it was asked for. -/
inductive QueueFault
  | publishTimeout (queue : String) (millis : Nat)
  | publishRefused (queue : String)
  | receiverGone
  | consumerTaken (queue : String)
  | unknownTag (tag : Nat)
  | connectTimeout (seconds : Nat)
  | connect
  | openChannel
  | enableConfirms
  | setPrefetch
  | declare (queue : String)
  | publish (queue : String)
  | awaitConfirm
  | rejected (queue : String)
  | returned (queue : String) (code : Nat) (text : String)
  | createConsumer
  | receive
  | ack
  | nack
  | inspect (queue : String)
  | close
  | other (text : String)
  deriving DecidableEq

/-- Why a queue cannot be made from its settings. -/
inductive SetupFault
  | missingUrl
  | foreignScheme
  | blankQueueName
  | other (text : String)
  deriving DecidableEq

/-- The errors of the dispatcher. -/
inductive DispatchError
  | taskNotFound (id : String)
  | invalidTask (fault : TaskFault)
  | unknownCorrelation (id : String)
  | workerNotFound (queue : String)
  | workerBusy (queue : String) (task : Option String)
  | workerNotBusy (queue : String)
  | noWorkers
  | workerIndexOutOfRange (index count : Nat)
  | unknownProfile (profile : String)
  | protocol (fault : ProtocolFault)
  | messageQueue (fault : QueueFault)
  | serialization (text : String)
  | lookup (text : String)
  | configuration (fault : SetupFault)
  | internal (text : String)
  deriving DecidableEq

def TaskFault.message : TaskFault → String
  | missingId => "任务缺少ID"
  | missingType id => s!"任务 {id} 缺少模型类型"
  | missingPayload id => s!"任务 {id} 缺少原始消息"
  | alreadyStarted id worker => s!"任务 {id} 已分发给 " ++ Quoted.optional worker
  | other text => text

def ProtocolFault.message : ProtocolFault → String
  | unknownKind text => s!"未知的注册消息类型: {text}"
  | missingQueue => "注册消息缺少queue"
  | badTimestamp seconds => s!"无效的心跳时间戳: {seconds}"
  | missingItemId => "任务消息缺少id"
  | missingProfile id => s!"任务 {id} 缺少识别配置"
  | missingCorrelation => "结果消息缺少correlation_id"
  | other text => text

def QueueFault.message : QueueFault → String
  | publishTimeout queue millis => s!"发布到队列 {queue} 超时 (" ++ spanText millis ++ ")"
  | publishRefused queue => s!"模拟发布到队列 {queue} 失败"
  | receiverGone => "内存队列已关闭"
  | consumerTaken queue => s!"队列 {queue} 已有消费者"
  | unknownTag tag => s!"未知的delivery_tag: {tag}"
  | connectTimeout seconds => s!"连接RabbitMQ超时 ({seconds}s)"
  | connect => "连接RabbitMQ失败"
  | openChannel => "创建通道失败"
  | enableConfirms => "开启发布确认失败"
  | setPrefetch => "设置预取数量失败"
  | declare queue => s!"声明队列 {queue} 失败"
  | publish queue => s!"发布消息到队列 {queue} 失败"
  | awaitConfirm => "消息发布确认失败"
  | rejected queue => s!"队列 {queue} 拒绝了发布的消息"
  | returned queue code text => s!"消息无法路由到队列 {queue}，已被退回: {code} {text}"
  | createConsumer => "创建消费者失败"
  | receive => "接收消息失败"
  | ack => "确认消息失败"
  | nack => "拒绝消息失败"
  | inspect queue => s!"获取队列 {queue} 信息失败"
  | close => "关闭连接失败"
  | other text => text

def SetupFault.message : SetupFault → String
  | missingUrl => "RabbitMQ配置缺失：需要提供有效的AMQP URL"
  | foreignScheme => "RabbitMQ URL必须以amqp://或amqps://开头"
  | blankQueueName => "队列名称不能为空"
  | other text => text

namespace DispatchError

/-- The wording of an error. -/
def message : DispatchError → String
  | taskNotFound id => s!"任务未找到: {id}"
  | invalidTask fault => "无效的任务: " ++ fault.message
  | unknownCorrelation id => s!"未知的关联ID: {id}"
  | workerNotFound queue => s!"Worker未找到: {queue}"
  | workerBusy queue task => s!"Worker {queue} 已在处理任务 " ++ Quoted.optional task
  | workerNotBusy queue => s!"Worker {queue} 当前空闲"
  | noWorkers => "没有可供匹配的Worker"
  | workerIndexOutOfRange index count => s!"Worker索引越界: {index} (共 {count} 个)"
  | unknownProfile profile => s!"未知的识别配置: {profile}"
  | protocol fault => "协议错误: " ++ fault.message
  | messageQueue fault => "消息队列错误: " ++ fault.message
  | serialization text => s!"序列化错误: {text}"
  | lookup text => s!"查询服务错误: {text}"
  | configuration fault => "配置错误: " ++ fault.message
  | internal text => s!"内部错误: {text}"

/-- The name of the kind of an error. -/
def kindName : DispatchError → String
  | taskNotFound _ => "TaskNotFound"
  | invalidTask _ => "InvalidTask"
  | unknownCorrelation _ => "UnknownCorrelation"
  | workerNotFound _ => "WorkerNotFound"
  | workerBusy _ _ => "WorkerBusy"
  | workerNotBusy _ => "WorkerNotBusy"
  | noWorkers => "NoWorkers"
  | workerIndexOutOfRange _ _ => "WorkerIndexOutOfRange"
  | unknownProfile _ => "UnknownProfile"
  | protocol _ => "Protocol"
  | messageQueue _ => "MessageQueue"
  | serialization _ => "Serialization"
  | lookup _ => "Lookup"
  | configuration _ => "Configuration"
  | internal _ => "Internal"

/-- Whether an error concerns one message only. -/
def isMessageLevel : DispatchError → Bool
  | protocol _ | serialization _ | unknownProfile _ | invalidTask _ | unknownCorrelation _ => true
  | _ => false

end DispatchError

end SpeechDispatch

import SpeechDispatch.Config.Settings
import SpeechDispatch.Error
import SpeechDispatch.Text.Blank

/-!
# Setting up a message queue

What is asked of the settings of a queue before one is made of them, and how they are shown in the log.
-/

namespace SpeechDispatch

namespace QueueSettings

/-- Whether the settings allow to make a queue. -/
def checkSetup (s : QueueSettings) : Except DispatchError Unit :=
  if s.kind = .rabbitmq ∧ s.url.isEmpty then .error (.configuration .missingUrl)
  else if s.kind = .rabbitmq ∧ ¬ (s.url.startsWith "amqp://" ∨ s.url.startsWith "amqps://") then
    .error (.configuration .foreignScheme)
  else if s.queueNames.any isBlank then .error (.configuration .blankQueueName)
  else .ok ()

end QueueSettings

/-- An address with what stands between the last colon before the first `@` and that `@` hidden. -/
def maskPassword (url : String) : String :=
  let front := url.toList.takeWhile (· ≠ '@')
  match url.toList.dropWhile (· ≠ '@') with
  | [] => url
  | back =>
    match front.reverse.dropWhile (· ≠ ':') with
    | [] => url
    | user => String.ofList (user.reverse ++ "***".toList ++ back)

/-- The line by which the log says what is connected to. -/
def connectLine (s : QueueSettings) : String := s!"连接消息队列 ({s.kind.word}): " ++ maskPassword s.url

end SpeechDispatch

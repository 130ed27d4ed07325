import TradingBroker.Broadcast.Cycle

/-!
# The chats a cycle is broadcast into

`parse_chat_targets` of `broker/services/notification_service.py`, and `_parse`,
`_raw_id` and `BroadcastDispatcher._targets` on top of it. An entry of the form
`<chat id>_<topic id>` addresses a topic of a group; `int()` may refuse the topic
of such an entry, which is the `none` of the functions here.

`_parse` keeps the first of equal texts, and `_targets` puts the public chats
behind the private ones, leaving out those it has. What `int()` takes for a topic
is `pyInt`, with the digits of every script Unicode has them of.
-/

namespace TradingBroker.Broadcast

/-- `ChatTarget`. -/
structure ChatTarget where
  chatId : String
  messageThreadId : Option Int
  deriving DecidableEq

/-- `\d+`. -/
def isDigits (cs : List Char) : Bool :=
  !cs.isEmpty && cs.all fun c => (pyDigit c.toNat).isSome

/-- `-?\d+`. -/
def isSignedDigits : List Char → Bool
  | '-' :: cs => isDigits cs
  | cs => isDigits cs

/-- `_CHAT_TOPIC_RE.fullmatch`: no digit is an underscore, so it splits the entry
in two. -/
def chatTopic (spec : String) : Option (String × String) :=
  match pySplit '_' spec with
  | [chat, topic] =>
      if isSignedDigits chat.toList && isDigits topic.toList then some (chat, topic) else none
  | _ => none

def parseChatTarget (spec : String) : Option ChatTarget :=
  match chatTopic spec with
  | none => some ⟨spec, none⟩
  | some (chat, topic) => (pyInt topic).map fun n => ⟨chat, some n⟩

def parseChatTargets (raw : String) : Option (List ChatTarget) :=
  (pySplit ',' raw).foldlM (fun targets entry =>
    let spec := stripped entry
    if spec = "" then some targets
    else (parseChatTarget spec).map fun target =>
      if target ∈ targets then targets else targets ++ [target]) []

/-- `_parse`: the entries of a setting, each with its target. -/
def parseEntries (raw : Option String) : Option (List (String × ChatTarget)) :=
  (pySplit ',' (raw.getD "")).foldlM (fun pairs part =>
    let entry := stripped part
    if entry = "" ∨ (pairs.any fun pair => pair.1 == entry) = true then some pairs
    else (parseChatTargets entry).map fun parsed =>
      match parsed with
      | [] => pairs
      | target :: _ => pairs ++ [(entry, target)]) []

/-- `_raw_id`: what a chat's row is found by. -/
def ChatTarget.rawId (chat : ChatTarget) : String :=
  match chat.messageThreadId with
  | none => chat.chatId
  | some topic => chat.chatId ++ "_" ++ toString topic

structure Target where
  audience : Audience
  chat : ChatTarget
  deriving DecidableEq

def Target.rawId (t : Target) : String := t.chat.rawId

/-- `dict.setdefault`. -/
def setDefault (d : List (String × Target)) (raw : String) (t : Target) :
    List (String × Target) :=
  if d.any fun item => item.1 == raw then d else d ++ [(raw, t)]

/-- `BroadcastDispatcher._targets`: private first, a chat listed twice once. -/
def targets (privateRaw : String) (publicRaw : Option String) : Option (List Target) := do
  let priv ← parseEntries (some privateRaw)
  let pub ← parseEntries publicRaw
  let chosen := priv.foldl (fun d pair => setDefault d pair.1 ⟨.privateChats, pair.2⟩) []
  let all := pub.foldl (fun d pair => setDefault d pair.1 ⟨.publicChats, pair.2⟩) chosen
  pure (all.map Prod.snd)

end TradingBroker.Broadcast

import K2eg.Model.MonitorChecker
import K2eg.Model.PVData

/-! # The metadata of a queue

`RDKafkaPublisher::getQueueMetadata` asks the brokers for their consumer groups, and for the members
of each of them. -/

namespace K2eg

structure QueueSubscriberInfo where
  clientId : String
  memberId : String
  host : String
  deriving DecidableEq, Repr

structure QueueSubscriberGroupInfo where
  name : String
  subscribers : List QueueSubscriberInfo
  deriving DecidableEq, Repr

structure QueueMetadata where
  name : String
  subscriberGroups : List QueueSubscriberGroupInfo
  deriving DecidableEq, Repr

/-- A member of a consumer group, with the topics it is subscribed to. -/
structure GroupMember where
  info : QueueSubscriberInfo
  topics : List String
  deriving DecidableEq, Repr

/-- A consumer group, and whether the brokers answer the question for it with an error. -/
structure ConsumerGroup where
  groupId : String
  members : List GroupMember
  err : Bool := false
  deriving DecidableEq, Repr

/-- A member of the group is subscribed to the topic. -/
def ConsumerGroup.Subscribed (group : ConsumerGroup) (topic : String) : Prop :=
  ∃ member ∈ group.members, topic ∈ member.topics

/-- What the brokers answer: the groups that are listed, or an error. -/
structure KafkaBrokers where
  groups : List ConsumerGroup
  listFails : Bool := false
  groupIds_nodup : (groups.map ConsumerGroup.groupId).Nodup

namespace KafkaBrokers

variable (brokers : KafkaBrokers)

/-- `get_group_info` -/
def getGroupInfo (group : String) : Except Failure QueueSubscriberGroupInfo :=
  let grplist := brokers.groups.filter fun gi => gi.groupId = group
  if grplist.any ConsumerGroup.err then .error .thrown
  else .ok {
    name := group
    subscribers := grplist.flatMap fun gi => gi.members.map GroupMember.info }

/-- `scan_groups` -/
def scanGroups : List ConsumerGroup → Except Failure (List QueueSubscriberGroupInfo)
  | [] => .ok []
  | group :: rest => do
    let groupInfo ← brokers.getGroupInfo group.groupId
    let subscriberGroups ← scanGroups rest
    return if groupInfo.subscribers = [] then subscriberGroups else groupInfo :: subscriberGroups

/-- `getQueueMetadata`; the handle of the topic is used for nothing. -/
def getQueueMetadata (queueName : String) : Except Failure QueueMetadata :=
  if brokers.listFails then .error .thrown
  else do
    let subscriberGroups ← brokers.scanGroups brokers.groups
    return { name := queueName, subscriberGroups }

/-- What `scanForMonitorToStop` reads of the metadata; an exception leaves none. -/
def metadata (queueName : String) : Option (List SubscriberGroup) :=
  match brokers.getQueueMetadata queueName with
  | .error _ => none
  | .ok queueMetadata => some (queueMetadata.subscriberGroups.map fun cg =>
      { name := cg.name, subscribers := cg.subscribers.length })

end KafkaBrokers

end K2eg

import OneOS.Foundation.CStrings
import OneOS.Foundation.NumberedTable
import OneOS.Foundation.Runs

/-!
# The stream processor

`services/stream_processor.c`: processors with topics and consumers. A topic has partitions, and a
partition is an array of events to which a publish appends one, until it is full. A consumer reads
one partition of one topic, from an offset on, in batches. Processors, and the topics and consumers
of a processor, are named by their positions counted from 1.

Left out are the checks of pointers, the deletions, the retention and the number of consumers of a
topic, the times and counters that are only written, and the functions that do nothing.
`sp_publish_batch` is a loop of calls of `sp_publish_event`. The number that `rand` returns, the
time and whether there is memory are inputs.
-/

set_option autoImplicit false
set_option relaxedAutoImplicit false

namespace OneOS.Streams

open Foundation

/-! ### Events -/

/-- The number of processors that there is room for. -/
def maxProcessors : ℕ := 16

/-- `MAX_STREAM_BUFFER`. -/
def maxStreamBuffer : UInt32 := 16384

/-- `MAX_STREAM_PARTITIONS`. -/
def maxStreamPartitions : UInt32 := 32

/-- `MAX_CONSUMERS`. -/
def maxConsumers : ℕ := 256

/-- `MAX_TOPICS`. -/
def maxTopics : ℕ := 64

/-- `StreamEvent`. The length of the payload is its `payload_size`. -/
structure StreamEvent where
  eventId : UInt64
  timestamp : UInt64
  keyHash : UInt32
  payload : List UInt8
  partitionId : UInt32
  deriving DecidableEq, Repr

/-- `StreamPartition`. The events are the slots that `event_count` says are used. -/
structure StreamPartition where
  partitionId : UInt32
  events : List StreamEvent
  capacity : UInt32
  deriving DecidableEq, Repr

/-- `StreamTopic`. The partitions are those that `partition_count` says are used. -/
structure StreamTopic where
  topicId : UInt32
  topicName : CString
  partitions : List StreamPartition
  totalEvents : UInt64
  totalBytes : UInt64
  deriving DecidableEq, Repr

/-- `partition_count` of a topic. -/
def StreamTopic.partitionCount (topic : StreamTopic) : UInt32 :=
  UInt32.ofNat topic.partitions.length

/-- The topic that `sp_create_topic` makes. -/
def newTopic (topicId : UInt32) (topicName : CString) (partitionCount : UInt32) : StreamTopic where
  topicId := topicId
  topicName := topicName.take 63
  partitions := (List.range partitionCount.toNat).map fun i ↦
    { partitionId := UInt32.ofNat i
      events := []
      capacity := maxStreamBuffer / partitionCount }
  totalEvents := 0
  totalBytes := 0

/-- The event that a publish makes. -/
def StreamTopic.newEvent (topic : StreamTopic) (partitionId keyHash : UInt32) (payload : List UInt8)
    (now : UInt64) : StreamEvent where
  eventId := topic.totalEvents + 1
  timestamp := now
  keyHash := keyHash
  payload := payload
  partitionId := partitionId

/-- There is room for an event in a partition of the topic, and memory for its payload. -/
def StreamTopic.accepts (topic : StreamTopic) (partitionId : UInt32) (malloc : Bool) : Bool :=
  topic.partitions[partitionId.toNat]?.any (fun partition ↦
    partition.events.length < partition.capacity.toNat) && malloc

/-- What `sp_publish_event` and `sp_publish_with_key` do once they have chosen a partition. Without
memory for the payload the slot behind the events is changed and stays free. -/
def StreamTopic.publish (topic : StreamTopic) (partitionId keyHash : UInt32) (payload : List UInt8)
    (now : UInt64) (malloc : Bool) : StreamTopic × Int :=
  if topic.accepts partitionId malloc then
    ({ topic with
      partitions := topic.partitions.modify partitionId.toNat fun partition ↦
        { partition with
          events := partition.events ++ [topic.newEvent partitionId keyHash payload now] }
      totalEvents := topic.totalEvents + 1
      totalBytes := topic.totalBytes + UInt64.ofNat payload.length },
      (topic.totalEvents + 1).toUInt32.toInt32.toInt)
  else (topic, -1)

/-- The partition that `sp_publish_event` chooses, by the number that `rand` returns. -/
def StreamTopic.partitionAt (topic : StreamTopic) (random : UInt32) : UInt32 :=
  random % topic.partitionCount

/-- `sp_hash_key`. -/
def spHashKey (key : CString) : UInt32 :=
  xorHash key

/-- The partition that `sp_publish_with_key` chooses. -/
def StreamTopic.partitionFor (topic : StreamTopic) (key : CString) : UInt32 :=
  spHashKey key % topic.partitionCount

/-! ### Consumers -/

/-- `StreamConsumer`. -/
structure StreamConsumer where
  consumerId : UInt32
  consumerGroup : CString
  topicId : UInt32
  currentPartition : UInt32
  currentOffset : UInt64
  lastCommitOffset : UInt64
  batchSize : UInt32
  processedEvents : UInt64
  deriving DecidableEq, Repr

/-- The consumer that `sp_create_consumer` makes. -/
def newConsumer (consumerId topicId : UInt32) (consumerGroup : CString) (batchSize : UInt32) :
    StreamConsumer where
  consumerId := consumerId
  consumerGroup := consumerGroup.take 63
  topicId := topicId
  currentPartition := 0
  currentOffset := 0
  lastCommitOffset := 0
  batchSize := if 0 < batchSize then batchSize else 1
  processedEvents := 0

/-- How many events a consumer takes from a partition. The difference is taken in 64 bits and cut
down to 32. -/
def StreamConsumer.toConsume (consumer : StreamConsumer) (partition : StreamPartition) : UInt32 :=
  let available := (UInt64.ofNat partition.events.length - consumer.currentOffset).toUInt32
  if available < consumer.batchSize then available else consumer.batchSize

/-- What a consumer is given: how many events, and the events. -/
structure Batch where
  count : UInt32
  events : List StreamEvent
  deriving DecidableEq, Repr

/-- `sp_consume_events`, on its consumer. Slots behind the events of a partition, which only a
consumer that has sought can reach, are left out of the batch. -/
def StreamConsumer.consume (consumer : StreamConsumer) (topics : List StreamTopic) :
    StreamConsumer × Batch :=
  match rowOf topics consumer.topicId with
  | none => (consumer, { count := 0, events := [] })
  | some topic =>
    match topic.partitions[consumer.currentPartition.toNat]? with
    | none => (consumer, { count := 0, events := [] })
    | some partition =>
      let toConsume := consumer.toConsume partition
      ({ consumer with
        currentOffset := consumer.currentOffset + toConsume.toUInt64
        processedEvents := consumer.processedEvents + toConsume.toUInt64 },
        { count := toConsume
          events := (partition.events.drop consumer.currentOffset.toNat).take toConsume.toNat })

/-- `sp_subscribe_consumer`, on its consumer. -/
def StreamConsumer.subscribe (consumer : StreamConsumer) (partitionId : UInt32) : StreamConsumer :=
  { consumer with currentPartition := partitionId, currentOffset := 0 }

/-- `sp_commit_offset`, on its consumer. -/
def StreamConsumer.commitOffset (consumer : StreamConsumer) : StreamConsumer :=
  { consumer with lastCommitOffset := consumer.currentOffset }

/-- `sp_seek_to_offset`, on its consumer. -/
def StreamConsumer.seekToOffset (consumer : StreamConsumer) (offset : UInt64) : StreamConsumer :=
  { consumer with currentOffset := offset }

/-! ### Processors -/

/-- `StreamProcessor`. -/
structure StreamProcessor where
  processorId : UInt32
  name : CString
  topics : List StreamTopic
  consumers : List StreamConsumer
  totalEventsProcessed : UInt64
  deriving DecidableEq, Repr

/-- `sp_create_processor`. -/
def spCreateProcessor (processors : List StreamProcessor) (name : CString) :
    List StreamProcessor × Int :=
  if maxProcessors ≤ processors.length then (processors, -1)
  else
    let processorId := UInt32.ofNat (processors.length + 1)
    (processors ++
      [{ processorId := processorId
         name := name.take 63
         topics := []
         consumers := []
         totalEventsProcessed := 0 }], processorId.toInt32.toInt)

/-- `sp_create_topic`, on its processor. -/
def StreamProcessor.createTopic (processor : StreamProcessor) (topicName : CString)
    (partitionCount : UInt32) (malloc : Bool) : StreamProcessor × Int :=
  if maxStreamPartitions < partitionCount ∨ partitionCount = 0 then (processor, -1)
  else if maxTopics ≤ processor.topics.length then (processor, -1)
  else if malloc then
    let topicId := UInt32.ofNat (processor.topics.length + 1)
    ({ processor with topics := processor.topics ++ [newTopic topicId topicName partitionCount] },
      topicId.toInt32.toInt)
  else (processor, -1)

/-- A call on a topic of a processor. -/
def StreamProcessor.onTopic (processor : StreamProcessor) (topicId : UInt32)
    (act : StreamTopic → StreamTopic × Int) : StreamProcessor × Int :=
  ({ processor with topics := (callOn processor.topics topicId act).1 },
    (callOn processor.topics topicId act).2)

/-- `sp_publish_event`, on its processor. Other than a publish with a key it is counted. -/
def StreamProcessor.publishEvent (processor : StreamProcessor) (topicId : UInt32)
    (payload : List UInt8) (random : UInt32) (now : UInt64) (malloc : Bool) :
    StreamProcessor × Int :=
  let accepted := (rowOf processor.topics topicId).any fun topic ↦
    topic.accepts (topic.partitionAt random) malloc
  let published := processor.onTopic topicId fun topic ↦
    topic.publish (topic.partitionAt random) 0 payload now malloc
  (if accepted then
    { published.1 with totalEventsProcessed := processor.totalEventsProcessed + 1 }
  else published.1, published.2)

/-- `sp_publish_with_key`, on its processor. -/
def StreamProcessor.publishWithKey (processor : StreamProcessor) (topicId : UInt32)
    (key : CString) (payload : List UInt8) (now : UInt64) (malloc : Bool) :
    StreamProcessor × Int :=
  processor.onTopic topicId fun topic ↦
    topic.publish (topic.partitionFor key) (spHashKey key) payload now malloc

/-- `sp_create_consumer`, on its processor. -/
def StreamProcessor.createConsumer (processor : StreamProcessor) (topicId : UInt32)
    (consumerGroup : CString) (batchSize : UInt32) : StreamProcessor × Int :=
  if rowOf processor.topics topicId = none then (processor, -1)
  else if maxConsumers ≤ processor.consumers.length then (processor, -1)
  else
    let consumerId := UInt32.ofNat (processor.consumers.length + 1)
    ({ processor with
      consumers := processor.consumers ++
        [newConsumer consumerId topicId consumerGroup batchSize] }, consumerId.toInt32.toInt)

/-- A call on a consumer of a processor. -/
def StreamProcessor.onConsumer (processor : StreamProcessor) (consumerId : UInt32)
    (act : StreamConsumer → StreamConsumer × Int) : StreamProcessor × Int :=
  ({ processor with consumers := (callOn processor.consumers consumerId act).1 },
    (callOn processor.consumers consumerId act).2)

/-! ### Calls -/

/-- A call on a consumer. -/
inductive ConsumerCall
  | subscribe (partitionId : UInt32)
  | consume
  | commitOffset
  | seekToOffset (offset : UInt64)
  deriving DecidableEq, Repr

/-- A call on a processor. -/
inductive ProcessorCall
  | createTopic (topicName : CString) (partitionCount : UInt32) (malloc : Bool)
  | publishEvent (topicId : UInt32) (payload : List UInt8) (random : UInt32) (now : UInt64)
    (malloc : Bool)
  | publishWithKey (topicId : UInt32) (key : CString) (payload : List UInt8) (now : UInt64)
    (malloc : Bool)
  | createConsumer (topicId : UInt32) (consumerGroup : CString) (batchSize : UInt32)
  | onConsumer (consumerId : UInt32) (call : ConsumerCall)
  deriving DecidableEq, Repr

/-- A call to the processors. -/
inductive StreamCall
  | createProcessor (name : CString)
  | onProcessor (processorId : UInt32) (call : ProcessorCall)
  deriving DecidableEq, Repr

/-- What a call on a consumer does to it, and what it returns. -/
def ConsumerCall.act (topics : List StreamTopic) (consumer : StreamConsumer) :
    ConsumerCall → StreamConsumer × Int
  | .subscribe partitionId => (consumer.subscribe partitionId, 0)
  | .consume => ((consumer.consume topics).1, (consumer.consume topics).2.count.toInt32.toInt)
  | .commitOffset => (consumer.commitOffset, 0)
  | .seekToOffset offset => (consumer.seekToOffset offset, 0)

/-- What a call on a processor does to it, and what it returns. -/
def ProcessorCall.act (processor : StreamProcessor) : ProcessorCall → StreamProcessor × Int
  | .createTopic topicName partitionCount malloc =>
    processor.createTopic topicName partitionCount malloc
  | .publishEvent topicId payload random now malloc =>
    processor.publishEvent topicId payload random now malloc
  | .publishWithKey topicId key payload now malloc =>
    processor.publishWithKey topicId key payload now malloc
  | .createConsumer topicId consumerGroup batchSize =>
    processor.createConsumer topicId consumerGroup batchSize
  | .onConsumer consumerId call =>
    processor.onConsumer consumerId fun consumer ↦ call.act processor.topics consumer

/-- What a call does to the processors. -/
def streamStep (processors : List StreamProcessor) : StreamCall → List StreamProcessor
  | .createProcessor name => (spCreateProcessor processors name).1
  | .onProcessor processorId call =>
    (callOn processors processorId fun processor ↦ call.act processor).1

end OneOS.Streams

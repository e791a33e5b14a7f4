import OneOS.Foundation.Logs
import OneOS.Streams.StreamProcessor

/-!
# Ordered delivery

What was published to a topic, in order, and what every consumer was given since it was last
subscribed, batch after batch, is recorded by `trafficsAfter`. Nothing is asked of a consumer that
has sought since.

`streamsDeliver_alongRun`: along every run the events of a partition are those that were published
to it, in order, those with the same key are in one partition, no partition holds more than fits,
and what a consumer was given are the first events of its partition, up to its offset.
-/

set_option autoImplicit false
set_option relaxedAutoImplicit false

namespace OneOS.Streams

open Foundation

/-! ### What goes through a processor -/

/-- An event that was published: its key, if it has one, and the partition it went to. -/
structure Publication where
  key : Option CString
  partition : ℕ
  event : StreamEvent
  deriving DecidableEq, Repr

/-- What goes through a processor: what was published to each topic, and what each consumer was
given since it was created or last subscribed, unless it has sought since. -/
structure Traffic where
  published : UInt32 → List Publication
  received : UInt32 → Option (List StreamEvent)

/-- Nothing went through a processor. -/
def noTraffic : Traffic where
  published := fun _ ↦ []
  received := fun _ ↦ some []

/-- What was published to a topic after one more publish. -/
def StreamTopic.publishedAfter (topic : StreamTopic) (key : Option CString)
    (partitionId keyHash : UInt32) (payload : List UInt8) (now : UInt64) (malloc : Bool)
    (published : List Publication) : List Publication :=
  if topic.accepts partitionId malloc then
    published ++
      [{ key := key
         partition := partitionId.toNat
         event := topic.newEvent partitionId keyHash payload now }]
  else published

/-- What a consumer was given after a call. -/
def StreamConsumer.receivedAfter (consumer : StreamConsumer) (topics : List StreamTopic)
    (call : ConsumerCall) (received : Option (List StreamEvent)) : Option (List StreamEvent) :=
  match call with
  | .subscribe _ => some []
  | .consume => received.map fun batches ↦ batches ++ (consumer.consume topics).2.events
  | .commitOffset => received
  | .seekToOffset _ => none

/-- What went through a processor after a call. -/
def StreamProcessor.trafficAfter (processor : StreamProcessor) (call : ProcessorCall)
    (traffic : Traffic) : Traffic :=
  match call with
  | .publishEvent topicId payload random now malloc =>
    { traffic with
      published := recordAfter processor.topics topicId (fun topic published ↦
        topic.publishedAfter none (topic.partitionAt random) 0 payload now malloc published)
        traffic.published }
  | .publishWithKey topicId key payload now malloc =>
    { traffic with
      published := recordAfter processor.topics topicId (fun topic published ↦
        topic.publishedAfter (some key) (topic.partitionFor key) (spHashKey key) payload now malloc
          published) traffic.published }
  | .onConsumer consumerId call =>
    { traffic with
      received := recordAfter processor.consumers consumerId (fun consumer received ↦
        consumer.receivedAfter processor.topics call received) traffic.received }
  | _ => traffic

/-- What went through the processors after a call. -/
def trafficsAfter (processors : List StreamProcessor) (call : StreamCall)
    (traffics : UInt32 → Traffic) : UInt32 → Traffic :=
  match call with
  | .onProcessor processorId call =>
    recordAfter processors processorId (fun processor traffic ↦
      processor.trafficAfter call traffic) traffics
  | .createProcessor _ => traffics

/-! ### What is delivered -/

/-- The events of a partition of a topic. There are none without the partition. -/
def StreamTopic.eventsAt (topic : StreamTopic) (partitionId : UInt32) : List StreamEvent :=
  (topic.partitions[partitionId.toNat]?.map StreamPartition.events).getD []

/-- The events of a partition of the topic that an id names. There are none without the topic. -/
def eventsAt (topics : List StreamTopic) (topicId partitionId : UInt32) : List StreamEvent :=
  ((rowOf topics topicId).map fun topic ↦ topic.eventsAt partitionId).getD []

/-- The partitions of a topic hold what was published, in order, and no more than fits; what has a
key is where the hash of the key says. -/
structure Logs (topic : StreamTopic) (published : List Publication) : Prop where
  placed : ∀ i partition, topic.partitions[i]? = some partition →
    partition.events = (published.filter fun publication ↦ publication.partition = i).map
      Publication.event
  inside : ∀ publication ∈ published, publication.partition < topic.partitions.length
  hashed : ∀ publication ∈ published, ∀ key, publication.key = some key →
    publication.partition = (topic.partitionFor key).toNat
  fits : ∀ partition ∈ topic.partitions, partition.events.length ≤ partition.capacity.toNat
  bounded : ∀ partition ∈ topic.partitions, partition.capacity ≤ maxStreamBuffer

/-- What a consumer was given are the first events of its partition, up to its offset. -/
def Reads (topics : List StreamTopic) (consumer : StreamConsumer)
    (received : Option (List StreamEvent)) : Prop :=
  ∀ batches, received = some batches →
    ReadTo (eventsAt topics consumer.topicId consumer.currentPartition)
      consumer.currentOffset.toNat batches

/-- A processor delivers what goes through it. -/
structure Delivers (processor : StreamProcessor) (traffic : Traffic) : Prop where
  topics : RowsMatch Logs [] processor.topics traffic.published
  consumers : RowsMatch (Reads processor.topics) (some []) processor.consumers traffic.received

/-- The topic that the ids of a processor and of a topic name. -/
def topicOf (processors : List StreamProcessor) (processorId topicId : UInt32) :
    Option StreamTopic :=
  (rowOf processors processorId).bind fun processor ↦ rowOf processor.topics topicId

/-- What was published is in the partition it went to, and events with the same key went to one
partition; the events of a partition are those that went to it, in order, and they fit; and a
consumer that has not sought since it was subscribed was given exactly the events of its partition
before its offset, in order. -/
structure StreamsDeliver (traced : List StreamProcessor × (UInt32 → Traffic)) : Prop where
  lands : ∀ processorId topicId, ∀ publication ∈ (traced.2 processorId).published topicId,
    ∃ topic partition, topicOf traced.1 processorId topicId = some topic ∧
      topic.partitions[publication.partition]? = some partition ∧
        publication.event ∈ partition.events
  together : ∀ processorId topicId, ∀ first ∈ (traced.2 processorId).published topicId,
    ∀ second ∈ (traced.2 processorId).published topicId, ∀ key, first.key = some key →
      second.key = some key → first.partition = second.partition
  placed : ∀ processorId topicId topic, topicOf traced.1 processorId topicId = some topic →
    ∀ i partition, topic.partitions[i]? = some partition →
      partition.events.length ≤ partition.capacity.toNat ∧
        partition.events = (((traced.2 processorId).published topicId).filter fun publication ↦
          publication.partition = i).map Publication.event
  given : ∀ processorId processor, rowOf traced.1 processorId = some processor →
    ∀ consumerId consumer, rowOf processor.consumers consumerId = some consumer →
      ∀ batches, (traced.2 processorId).received consumerId = some batches →
        batches = (eventsAt processor.topics consumer.topicId consumer.currentPartition).take
          consumer.currentOffset.toNat ∧
        consumer.currentOffset.toNat ≤
          (eventsAt processor.topics consumer.topicId consumer.currentPartition).length

/-! ### Publishes -/

variable {topic : StreamTopic} {topics longer : List StreamTopic} {published : List Publication}
variable {partitionId keyHash : UInt32} {payload : List UInt8} {now : UInt64} {malloc : Bool}

theorem accepts_iff :
    topic.accepts partitionId malloc = true ↔
      (∃ partition, topic.partitions[partitionId.toNat]? = some partition ∧
        partition.events.length < partition.capacity.toNat) ∧ malloc = true := by
  simp [StreamTopic.accepts, Option.any_eq_true]

/-- A publish keeps the number of partitions, so the partition of every key. -/
theorem partitionFor_publish (key : CString) :
    (topic.publish partitionId keyHash payload now malloc).1.partitionFor key =
      topic.partitionFor key := by
  unfold StreamTopic.publish
  split_ifs
  · rw [StreamTopic.partitionFor, StreamTopic.partitionCount, List.length_modify]
    rfl
  · rfl

/-- A publish appends to a partition. -/
theorem eventsAt_prefix_publish (other : UInt32) :
    topic.eventsAt other <+:
      (topic.publish partitionId keyHash payload now malloc).1.eventsAt other := by
  unfold StreamTopic.publish
  split_ifs
  · rw [StreamTopic.eventsAt, StreamTopic.eventsAt, List.getElem?_modify]
    cases topic.partitions[other.toNat]? with
    | none => exact List.prefix_refl _
    | some partition =>
      simp only [Option.map_eq_map, Option.map_some, Option.getD_some]
      split_ifs
      · exact List.prefix_append _ _
      · exact List.prefix_refl _
  · exact List.prefix_refl _

/-- Assumes: an event with a key goes to the partition of the key. A publish keeps the partitions
holding what was published. -/
theorem Logs.publish (hlogs : Logs topic published) {key : Option CString}
    (hkey : ∀ text, key = some text → partitionId = topic.partitionFor text) :
    Logs (topic.publish partitionId keyHash payload now malloc).1
      (topic.publishedAfter key partitionId keyHash payload now malloc published) := by
  have hfor := @partitionFor_publish topic partitionId keyHash payload now malloc
  by_cases haccepts : topic.accepts partitionId malloc = true
  · obtain ⟨⟨partition, hpartition, hroom⟩, -⟩ := accepts_iff.mp haccepts
    have hlt := (List.getElem?_eq_some_iff.mp hpartition).1
    rw [StreamTopic.publish, if_pos haccepts] at hfor ⊢
    rw [StreamTopic.publishedAfter, if_pos haccepts]
    refine ⟨fun i changed hchanged ↦ ?_, fun publication hpublication ↦ ?_,
      fun publication hpublication text htext ↦ ?_, ?_, ?_⟩
    · dsimp only at hchanged
      rw [List.getElem?_modify, Option.map_eq_map, Option.map_eq_some_iff] at hchanged
      obtain ⟨old, hold, rfl⟩ := hchanged
      rw [List.filter_append, List.map_append, ← hlogs.placed i old hold]
      by_cases hhere : partitionId.toNat = i
      · rw [if_pos hhere, List.filter_cons_of_pos]
        · rfl
        · exact decide_eq_true hhere
      · rw [if_neg hhere, List.filter_cons_of_neg]
        · rw [List.filter_nil, List.map_nil, List.append_nil]
        · exact fun htrue ↦ hhere (of_decide_eq_true htrue)
    · dsimp only
      rw [List.length_modify]
      rcases List.mem_append.mp hpublication with hold | hnew
      · exact hlogs.inside publication hold
      · obtain rfl := List.mem_singleton.mp hnew
        exact hlt
    · rw [hfor]
      rcases List.mem_append.mp hpublication with hold | hnew
      · exact hlogs.hashed publication hold text htext
      · obtain rfl := List.mem_singleton.mp hnew
        exact congrArg UInt32.toNat (hkey text htext)
    · refine (forall_mem_modify_iff hlogs.fits hpartition _).mpr ?_
      dsimp only
      rw [List.length_append, List.length_singleton]
      exact hroom
    · exact (forall_mem_modify_iff hlogs.bounded hpartition _).mpr
        (hlogs.bounded partition (List.mem_of_getElem? hpartition))
  · rw [StreamTopic.publish, if_neg haccepts, StreamTopic.publishedAfter, if_neg haccepts]
    exact hlogs

/-- A new topic holds nothing. -/
theorem logs_newTopic (topicId : UInt32) (topicName : CString) (partitionCount : UInt32) :
    Logs (newTopic topicId topicName partitionCount) [] := by
  have hnew : ∀ partition ∈ (newTopic topicId topicName partitionCount).partitions,
      partition.events = [] ∧ partition.capacity = maxStreamBuffer / partitionCount := by
    intro partition hpartition
    obtain ⟨i, -, rfl⟩ := List.mem_map.mp hpartition
    exact ⟨rfl, rfl⟩
  refine ⟨fun i partition hpartition ↦ ?_, by simp, by simp, fun partition hpartition ↦ ?_,
    fun partition hpartition ↦ ?_⟩
  · exact (hnew partition (List.mem_of_getElem? hpartition)).1
  · rw [(hnew partition hpartition).1]
    exact Nat.zero_le _
  · rw [(hnew partition hpartition).2, UInt32.le_iff_toNat_le, UInt32.toNat_div]
    exact Nat.div_le_self _ _

/-! ### Consumers -/

variable {consumer : StreamConsumer} {received : Option (List StreamEvent)}

/-- A consumer keeps what it was given when the partitions grow. -/
theorem Reads.grow (hreads : Reads topics consumer received)
    (hgrow : ∀ topicId partitionId,
      eventsAt topics topicId partitionId <+: eventsAt longer topicId partitionId) :
    Reads longer consumer received :=
  fun batches hbatches ↦ (hreads batches hbatches).grow (hgrow _ _)

/-- Partitions grow when a topic is called that keeps or extends its partitions. -/
theorem eventsAt_prefix_callOn {called : UInt32} {act : StreamTopic → StreamTopic × Int}
    (hact : ∀ (topic : StreamTopic) partitionId,
      topic.eventsAt partitionId <+: (act topic).1.eventsAt partitionId)
    (topicId partitionId : UInt32) :
    eventsAt topics topicId partitionId <+:
      eventsAt (callOn topics called act).1 topicId partitionId := by
  rw [eventsAt, eventsAt]
  by_cases hsame : topicId = called
  · rw [hsame, rowOf_callOn_self]
    cases rowOf topics called with
    | none => exact List.prefix_refl _
    | some topic => exact hact topic partitionId
  · rw [rowOf_callOn_ne hsame]

/-- Partitions stay when a topic is added. -/
theorem eventsAt_prefix_concat (new : StreamTopic) (topicId partitionId : UInt32) :
    eventsAt topics topicId partitionId <+: eventsAt (topics ++ [new]) topicId partitionId := by
  rw [eventsAt, eventsAt]
  cases hrow : rowOf topics topicId with
  | none => exact List.nil_prefix
  | some topic => rw [rowOf_concat_of_some hrow]

/-- Assumes: the offset is not behind the end of a partition, which is not longer than 16384. The
events that are taken are among those that are left. -/
theorem toNat_toConsume_le {partition : StreamPartition}
    (hlength : partition.events.length ≤ maxStreamBuffer.toNat)
    (hinside : consumer.currentOffset.toNat ≤ partition.events.length) :
    (consumer.toConsume partition).toNat ≤
      partition.events.length - consumer.currentOffset.toNat := by
  have hsmall : partition.events.length ≤ 16384 := hlength
  have hcount : (UInt64.ofNat partition.events.length).toNat = partition.events.length :=
    UInt64.toNat_ofNat_of_lt' (show partition.events.length < 2 ^ 64 by omega)
  have hle : consumer.currentOffset ≤ UInt64.ofNat partition.events.length := by
    rw [UInt64.le_iff_toNat_le, hcount]
    exact hinside
  have havailable :
      (UInt64.ofNat partition.events.length - consumer.currentOffset).toUInt32.toNat =
        partition.events.length - consumer.currentOffset.toNat := by
    rw [UInt64.toNat_toUInt32, UInt64.toNat_sub_of_le _ _ hle, hcount]
    exact Nat.mod_eq_of_lt (by omega)
  rw [StreamConsumer.toConsume]
  split_ifs with hless
  · exact havailable.le
  · rw [← havailable]
    exact UInt32.le_iff_toNat_le.mp (UInt32.not_lt.mp hless)

/-- A consumer that consumes is given the next events of its partition. -/
theorem Reads.consume {publisheds : UInt32 → List Publication}
    (hlogs : RowsMatch Logs [] topics publisheds) (hreads : Reads topics consumer received) :
    Reads topics (consumer.consume topics).1
      (received.map fun batches ↦ batches ++ (consumer.consume topics).2.events) := by
  intro batches hbatches
  obtain ⟨before, hbefore, rfl⟩ := Option.map_eq_some_iff.mp hbatches
  have hread := hreads before hbefore
  rw [StreamConsumer.consume]
  cases hrow : rowOf topics consumer.topicId with
  | none => simpa using hread
  | some topic =>
    dsimp only
    cases hpartition : topic.partitions[consumer.currentPartition.toNat]? with
    | none => simpa using hread
    | some partition =>
      have hlog := hlogs.related consumer.topicId topic hrow
      have hmem := List.mem_of_getElem? hpartition
      have hevents : eventsAt topics consumer.topicId consumer.currentPartition =
          partition.events := by
        rw [eventsAt, hrow, Option.map_some, Option.getD_some, StreamTopic.eventsAt, hpartition]
        rfl
      have hlength : partition.events.length ≤ maxStreamBuffer.toNat :=
        (hlog.fits partition hmem).trans (UInt32.le_iff_toNat_le.mp (hlog.bounded partition hmem))
      rw [hevents] at hread
      have hcount := toNat_toConsume_le hlength hread.inside
      dsimp only
      rw [hevents]
      have hoffset : (consumer.currentOffset + (consumer.toConsume partition).toUInt64).toNat =
          consumer.currentOffset.toNat + (consumer.toConsume partition).toNat := by
        have hsmall : partition.events.length ≤ 16384 := hlength
        have hinside := hread.inside
        rw [UInt64.toNat_add, UInt32.toNat_toUInt64]
        exact Nat.mod_eq_of_lt (by omega)
      rw [hoffset]
      exact hread.next hcount

/-- Every call on a consumer keeps the record of what it was given right. -/
theorem Reads.act {publisheds : UInt32 → List Publication}
    (hlogs : RowsMatch Logs [] topics publisheds) (hreads : Reads topics consumer received)
    (call : ConsumerCall) :
    Reads topics (call.act topics consumer).1 (consumer.receivedAfter topics call received) := by
  cases call with
  | subscribe partitionId =>
    rintro batches ⟨rfl⟩
    exact readTo_zero
  | consume => exact hreads.consume hlogs
  | commitOffset => exact hreads
  | seekToOffset offset => exact fun batches hnone ↦ absurd hnone.symm (Option.some_ne_none _)

/-! ### Processors -/

variable {processor : StreamProcessor} {traffic : Traffic}

/-- Assumes: a call on a topic keeps the topic holding what was published, and appends to its
partitions. It keeps a processor delivering. -/
theorem Delivers.onTopic (hdelivers : Delivers processor traffic) (topicId : UInt32)
    {act : StreamTopic → StreamTopic × Int}
    {extend : StreamTopic → List Publication → List Publication}
    (hlogs : ∀ topic published, Logs topic published → Logs (act topic).1 (extend topic published))
    (hgrow : ∀ (topic : StreamTopic) partitionId,
      topic.eventsAt partitionId <+: (act topic).1.eventsAt partitionId) :
    Delivers (processor.onTopic topicId act).1
      { traffic with
        published := recordAfter processor.topics topicId extend traffic.published } := by
  refine ⟨(hdelivers.topics.recordAfter_iff extend).mpr fun topic htopic ↦ ?_, ?_⟩
  · exact hlogs topic _ (hdelivers.topics.related topicId topic htopic)
  · exact hdelivers.consumers.imp fun consumer received hreads ↦
      hreads.grow (eventsAt_prefix_callOn hgrow)

/-- Every call on a processor keeps it delivering what goes through it. -/
theorem Delivers.act (hdelivers : Delivers processor traffic) (call : ProcessorCall) :
    Delivers (call.act processor).1 (processor.trafficAfter call traffic) := by
  cases call with
  | createTopic topicName partitionCount malloc =>
    rw [ProcessorCall.act, StreamProcessor.createTopic]
    split_ifs
    · exact hdelivers
    · exact hdelivers
    · refine ⟨hdelivers.topics.concat (logs_newTopic _ _ _), ?_⟩
      exact hdelivers.consumers.imp fun consumer received hreads ↦
        hreads.grow (eventsAt_prefix_concat _)
    · exact hdelivers
  | publishEvent topicId payload random now malloc =>
    have hpublished : Delivers (processor.onTopic topicId fun topic ↦
          topic.publish (topic.partitionAt random) 0 payload now malloc).1
        (processor.trafficAfter (.publishEvent topicId payload random now malloc) traffic) := by
      refine hdelivers.onTopic topicId (fun topic published hlogs ↦ ?_) fun topic other ↦
        eventsAt_prefix_publish other
      exact hlogs.publish fun text hnone ↦ absurd hnone.symm (Option.some_ne_none _)
    rw [ProcessorCall.act, StreamProcessor.publishEvent]
    dsimp only
    split_ifs
    · exact ⟨hpublished.topics, hpublished.consumers⟩
    · exact hpublished
  | publishWithKey topicId key payload now malloc =>
    refine hdelivers.onTopic topicId (fun topic published hlogs ↦ ?_) fun topic other ↦
      eventsAt_prefix_publish other
    refine hlogs.publish fun text htext ↦ ?_
    rw [Option.some.inj htext]
  | createConsumer topicId consumerGroup batchSize =>
    rw [ProcessorCall.act, StreamProcessor.createConsumer]
    split_ifs
    · exact hdelivers
    · exact hdelivers
    · refine ⟨hdelivers.topics, hdelivers.consumers.concat ?_⟩
      rintro batches ⟨rfl⟩
      exact readTo_zero
  | onConsumer consumerId call =>
    refine ⟨hdelivers.topics, ?_⟩
    refine (hdelivers.consumers.recordAfter_iff _).mpr fun consumer hconsumer ↦ ?_
    exact (hdelivers.consumers.related consumerId consumer hconsumer).act hdelivers.topics call

/-! ### Runs -/

/-- Processors that match what went through them deliver it. -/
theorem streamsDeliver_of_match {processors : List StreamProcessor} {traffics : UInt32 → Traffic}
    (hmatch : RowsMatch Delivers noTraffic processors traffics) :
    StreamsDeliver (processors, traffics) := by
  -- what was published was published to a topic
  have htopic : ∀ processorId topicId, ∀ publication ∈ (traffics processorId).published topicId,
      ∃ topic, topicOf processors processorId topicId = some topic ∧
        Logs topic ((traffics processorId).published topicId) := by
    intro processorId topicId publication hpublication
    cases hprocessor : rowOf processors processorId with
    | none =>
      rw [hmatch.missing processorId hprocessor] at hpublication
      exact absurd hpublication List.not_mem_nil
    | some processor =>
      have htopics := (hmatch.related processorId processor hprocessor).topics
      cases hrow : rowOf processor.topics topicId with
      | none =>
        rw [htopics.missing topicId hrow] at hpublication
        exact absurd hpublication List.not_mem_nil
      | some topic =>
        refine ⟨topic, ?_, htopics.related topicId topic hrow⟩
        rw [topicOf, hprocessor, Option.bind_some, hrow]
  refine ⟨?_, ?_, ?_, ?_⟩
  · intro processorId topicId publication hpublication
    obtain ⟨topic, hfound, hlogs⟩ := htopic processorId topicId publication hpublication
    have hat := List.getElem?_eq_getElem (hlogs.inside publication hpublication)
    refine ⟨topic, _, hfound, hat, ?_⟩
    rw [hlogs.placed _ _ hat]
    exact List.mem_map_of_mem (List.mem_filter.mpr ⟨hpublication, decide_eq_true rfl⟩)
  · intro processorId topicId first hfirst second hsecond key hkey hsame
    obtain ⟨topic, -, hlogs⟩ := htopic processorId topicId first hfirst
    rw [hlogs.hashed first hfirst key hkey, hlogs.hashed second hsecond key hsame]
  · intro processorId topicId topic hfound i partition hpartition
    obtain ⟨processor, hprocessor, hrow⟩ := Option.bind_eq_some_iff.mp hfound
    have htopics := (hmatch.related processorId processor hprocessor).topics
    have hlogs := htopics.related topicId topic hrow
    exact ⟨hlogs.fits partition (List.mem_of_getElem? hpartition),
      hlogs.placed i partition hpartition⟩
  · intro processorId processor hprocessor consumerId consumer hconsumer batches hbatches
    have hdelivers := hmatch.related processorId processor hprocessor
    have hread := hdelivers.consumers.related consumerId consumer hconsumer batches hbatches
    exact ⟨hread.read, hread.inside⟩

/-- Along every run of the processors, whatever `rand` returns and whatever memory there is, events
with the same key are in one partition, the events of a partition are those that were published to
it, in order, and no more than fit, and a consumer that has not sought since it was subscribed was
given, in the batches since then, exactly the events of its partition before its offset. -/
theorem streamsDeliver_alongRun (calls : List StreamCall) :
    AlongRun (withTrace streamStep trafficsAfter) StreamsDeliver ([], fun _ ↦ noTraffic) calls := by
  have hmatch : AlongRun (withTrace streamStep trafficsAfter)
      (fun traced ↦ RowsMatch Delivers noTraffic traced.1 traced.2) ([], fun _ ↦ noTraffic)
      calls := by
    refine alongRun_invariant _ (fun _ _ ↦ True) (fun traced call hbefore _ ↦ ?_) rowsMatch_nil
      fun _ _ _ ↦ trivial
    cases call with
    | createProcessor name =>
      show RowsMatch Delivers noTraffic (spCreateProcessor traced.1 name).1 traced.2
      rw [spCreateProcessor]
      split_ifs
      · exact hbefore
      · exact hbefore.concat ⟨rowsMatch_nil, rowsMatch_nil⟩
    | onProcessor processorId call =>
      refine (hbefore.recordAfter_iff _).mpr fun processor hprocessor ↦ ?_
      exact (hbefore.related processorId processor hprocessor).act call
  exact hmatch.imp fun _ hreached ↦ streamsDeliver_of_match hreached

end OneOS.Streams

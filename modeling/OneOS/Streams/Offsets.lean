import OneOS.Streams.Delivery

/-!
# Offsets

A consumer should not see events that were not written: what it consumes ends before the end of its
partition, its offset does not lie behind that end, and its lag is the number of events that are
left (`OffsetInside`).

`sp_seek_to_offset` takes every offset. Behind the end of the partition the difference that
`sp_consume_events` takes is wrapped around, and a whole batch is handed out. `sp_get_topic_lag`
does not look whether the topic has the partition that a consumer was subscribed to.

`offsetsInside_iff`: offsets are right along a run exactly when no seek goes behind the last event
of the partition, and no consumer is subscribed to a partition that the array has no slot for.
-/

set_option autoImplicit false
set_option relaxedAutoImplicit false

namespace OneOS.Streams

open Foundation

/-! ### The lag -/

/-- `event_count` of the slot of a partition. Slots behind the partitions of the topic hold no
events, and there are `MAX_STREAM_PARTITIONS` slots. -/
def StreamTopic.eventCount (topic : StreamTopic) (partitionId : UInt32) : Option UInt32 :=
  if partitionId < maxStreamPartitions then
    some (UInt32.ofNat (topic.eventsAt partitionId).length)
  else none

/-- `sp_get_topic_lag`, on its consumer. It is not defined when it reads a slot that there is none
of. -/
def StreamConsumer.topicLag (consumer : StreamConsumer) (topics : List StreamTopic) :
    Option UInt64 :=
  (rowOf topics consumer.topicId).bind fun topic ↦
    (topic.eventCount consumer.currentPartition).map fun eventCount ↦
      eventCount.toUInt64 - consumer.currentOffset

/-- The number of events of the partition of a consumer. -/
def StreamConsumer.written (consumer : StreamConsumer) (topics : List StreamTopic) : ℕ :=
  (eventsAt topics consumer.topicId consumer.currentPartition).length

/-- What is claimed of a consumer. The next events that it consumes are among those of its
partition, its offset is at most their number, and its lag is the difference, not wrapped around. -/
structure OffsetInside (topics : List StreamTopic) (consumer : StreamConsumer) : Prop where
  slice : consumer.currentOffset.toNat + (consumer.consume topics).2.count.toNat ≤
    consumer.written topics
  offset : consumer.currentOffset.toNat ≤ consumer.written topics
  lag : ∃ lag, consumer.topicLag topics = some lag ∧
    lag.toNat + consumer.currentOffset.toNat = consumer.written topics

/-- What is claimed of every consumer. -/
def OffsetsInside (processors : List StreamProcessor) : Prop :=
  ∀ processor ∈ processors, ∀ consumer ∈ processor.consumers,
    OffsetInside processor.topics consumer

/-- The condition on a call on a consumer. A seek does not go behind the last event of its
partition, and it is not subscribed to a partition that there is no slot for. -/
def ConsumerCall.StaysInside (topics : List StreamTopic) (consumer : StreamConsumer) :
    ConsumerCall → Prop
  | .subscribe partitionId => partitionId < maxStreamPartitions
  | .seekToOffset offset => offset.toNat ≤ consumer.written topics
  | _ => True

/-- The condition on a call on a processor, which is one on calls on consumers. -/
def ProcessorCall.StaysInside (processor : StreamProcessor) : ProcessorCall → Prop
  | .onConsumer consumerId call =>
    ∀ consumer, rowOf processor.consumers consumerId = some consumer →
      call.StaysInside processor.topics consumer
  | _ => True

/-- The condition on a call. -/
def CallStaysInside (processors : List StreamProcessor) : StreamCall → Prop
  | .onProcessor processorId call => ∀ processor, rowOf processors processorId = some processor →
    call.StaysInside processor
  | .createProcessor _ => True

/-! ### One consumer -/

variable {consumer : StreamConsumer} {topics longer : List StreamTopic}
variable {publisheds : UInt32 → List Publication}

/-- The partitions of topics are not longer than the largest buffer. -/
theorem written_le (hlogs : RowsMatch Logs [] topics publisheds) :
    consumer.written topics ≤ maxStreamBuffer.toNat := by
  rw [StreamConsumer.written, eventsAt]
  cases hrow : rowOf topics consumer.topicId with
  | none => exact Nat.zero_le _
  | some topic =>
    rw [Option.map_some, Option.getD_some, StreamTopic.eventsAt]
    cases hpartition : topic.partitions[consumer.currentPartition.toNat]? with
    | none => exact Nat.zero_le _
    | some partition =>
      have hlog := hlogs.related consumer.topicId topic hrow
      have hmem := List.mem_of_getElem? hpartition
      exact (hlog.fits partition hmem).trans
        (UInt32.le_iff_toNat_le.mp (hlog.bounded partition hmem))

/-- Assumes: the offset of a consumer is not behind the end of its partition. What it consumes is
not behind it either, and the offset after that is the end of what it consumes. -/
theorem consume_inside (hlogs : RowsMatch Logs [] topics publisheds)
    (hoffset : consumer.currentOffset.toNat ≤ consumer.written topics) :
    consumer.currentOffset.toNat + (consumer.consume topics).2.count.toNat ≤
        consumer.written topics ∧
      (consumer.consume topics).1.currentOffset.toNat =
        consumer.currentOffset.toNat + (consumer.consume topics).2.count.toNat := by
  have hbound : consumer.written topics ≤ maxStreamBuffer.toNat := written_le hlogs
  rw [StreamConsumer.consume]
  cases hrow : rowOf topics consumer.topicId with
  | none => exact ⟨hoffset, rfl⟩
  | some topic =>
    dsimp only
    cases hpartition : topic.partitions[consumer.currentPartition.toNat]? with
    | none => exact ⟨hoffset, rfl⟩
    | some partition =>
      have hwritten : consumer.written topics = partition.events.length := by
        rw [StreamConsumer.written, eventsAt, hrow, Option.map_some, Option.getD_some,
          StreamTopic.eventsAt, hpartition]
        rfl
      rw [hwritten] at hoffset hbound ⊢
      have hcount := toNat_toConsume_le hbound hoffset
      have hsmall : partition.events.length ≤ 16384 := hbound
      refine ⟨?_, ?_⟩
      · dsimp only
        omega
      · dsimp only
        rw [UInt64.toNat_add, UInt32.toNat_toUInt64]
        exact Nat.mod_eq_of_lt (by omega)

/-- Assumes: the topic of a consumer exists. The offset of the consumer is right exactly when its
partition has a slot and the offset is not behind the end of the partition. -/
theorem offsetInside_iff (hlogs : RowsMatch Logs [] topics publisheds)
    (htopic : rowOf topics consumer.topicId ≠ none) :
    OffsetInside topics consumer ↔
      consumer.currentPartition < maxStreamPartitions ∧
        consumer.currentOffset.toNat ≤ consumer.written topics := by
  obtain ⟨topic, hrow⟩ := Option.ne_none_iff_exists'.mp htopic
  have hsmall : consumer.written topics ≤ 16384 := written_le hlogs
  have hwritten : consumer.written topics = (topic.eventsAt consumer.currentPartition).length := by
    rw [StreamConsumer.written, eventsAt, hrow, Option.map_some, Option.getD_some]
  constructor
  · rintro ⟨-, hoffset, lag, hlag, -⟩
    refine ⟨?_, hoffset⟩
    by_contra hbehind
    rw [StreamConsumer.topicLag, hrow, Option.bind_some, StreamTopic.eventCount, if_neg hbehind,
      Option.map_none] at hlag
    exact Option.some_ne_none _ hlag.symm
  · rintro ⟨hslot, hoffset⟩
    refine ⟨(consume_inside hlogs hoffset).1, hoffset, ?_⟩
    rw [StreamConsumer.topicLag, hrow, Option.bind_some, StreamTopic.eventCount, if_pos hslot,
      Option.map_some]
    refine ⟨_, rfl, ?_⟩
    have hcount : (UInt32.ofNat (topic.eventsAt consumer.currentPartition).length).toUInt64.toNat =
        consumer.written topics := by
      rw [UInt32.toNat_toUInt64, hwritten]
      exact UInt32.toNat_ofNat_of_lt' (show _ < 2 ^ 32 by omega)
    rw [UInt64.toNat_sub_of_le _ _ (UInt64.le_iff_toNat_le.mpr (hcount ▸ hoffset)), hcount]
    omega

/-- Offsets stay right when the partitions grow. -/
theorem OffsetInside.grow (hinside : OffsetInside topics consumer)
    (hlogs : RowsMatch Logs [] topics publisheds) (htopic : rowOf topics consumer.topicId ≠ none)
    {publishedsAfter : UInt32 → List Publication}
    (hlogsAfter : RowsMatch Logs [] longer publishedsAfter)
    (htopicAfter : rowOf longer consumer.topicId ≠ none)
    (hgrow : ∀ topicId partitionId,
      eventsAt topics topicId partitionId <+: eventsAt longer topicId partitionId) :
    OffsetInside longer consumer := by
  obtain ⟨hslot, hoffset⟩ := (offsetInside_iff hlogs htopic).mp hinside
  exact (offsetInside_iff hlogsAfter htopicAfter).mpr
    ⟨hslot, hoffset.trans (hgrow _ _).length_le⟩

/-- A consumer that consumes stays at its partition. -/
theorem subscribed_consume (consumer : StreamConsumer) (topics : List StreamTopic) :
    (consumer.consume topics).1.topicId = consumer.topicId ∧
      (consumer.consume topics).1.currentPartition = consumer.currentPartition := by
  unfold StreamConsumer.consume
  split
  · exact ⟨rfl, rfl⟩
  · split <;> exact ⟨rfl, rfl⟩

/-- Assumes: the topic of a consumer exists, and its offset is right. It is right after a call
exactly when the call meets the condition. -/
theorem offsetInside_act_iff (hlogs : RowsMatch Logs [] topics publisheds)
    (htopic : rowOf topics consumer.topicId ≠ none) (hinside : OffsetInside topics consumer)
    (call : ConsumerCall) :
    OffsetInside topics (call.act topics consumer).1 ↔ call.StaysInside topics consumer := by
  obtain ⟨hslot, hoffset⟩ := (offsetInside_iff hlogs htopic).mp hinside
  cases call with
  | subscribe partitionId =>
    have hafter : OffsetInside topics (consumer.subscribe partitionId) ↔ _ :=
      offsetInside_iff hlogs htopic
    exact hafter.trans (and_iff_left (Nat.zero_le _))
  | consume =>
    refine iff_of_true ?_ trivial
    obtain ⟨hcount, hafter⟩ := consume_inside hlogs hoffset
    have hsame := subscribed_consume consumer topics
    have hwritten : (consumer.consume topics).1.written topics = consumer.written topics := by
      rw [StreamConsumer.written, hsame.1, hsame.2, StreamConsumer.written]
    refine (offsetInside_iff hlogs ?_).mpr ⟨?_, ?_⟩
    · exact fun hnone ↦ htopic (hsame.1 ▸ hnone)
    · exact hsame.2.symm ▸ hslot
    · exact hwritten.symm ▸ hafter.symm ▸ hcount
  | commitOffset =>
    have hafter : OffsetInside topics consumer.commitOffset ↔ _ := offsetInside_iff hlogs htopic
    exact iff_of_true (hafter.mpr ⟨hslot, hoffset⟩) trivial
  | seekToOffset offset =>
    have hafter : OffsetInside topics (consumer.seekToOffset offset) ↔ _ :=
      offsetInside_iff hlogs htopic
    exact hafter.trans (and_iff_right hslot)

/-! ### Runs -/

variable {processor : StreamProcessor} {processors : List StreamProcessor}

/-- How a processor always is: its partitions hold what was published, and no more than fits, and
the topics of its consumers exist. -/
structure Grounded (processor : StreamProcessor) : Prop where
  logs : ∃ traffic, Delivers processor traffic
  topics : ∀ consumer ∈ processor.consumers, rowOf processor.topics consumer.topicId ≠ none

/-- A processor whose topics are those of before, or more. -/
structure Grows (processor changed : StreamProcessor) : Prop where
  events : ∀ topicId partitionId,
    eventsAt processor.topics topicId partitionId <+: eventsAt changed.topics topicId partitionId
  topics : ∀ topicId, rowOf processor.topics topicId ≠ none → rowOf changed.topics topicId ≠ none

/-- A call on a topic that extends its partitions lets the processor grow. -/
theorem grows_onTopic (topicId : UInt32) {act : StreamTopic → StreamTopic × Int}
    (hact : ∀ (topic : StreamTopic) partitionId,
      topic.eventsAt partitionId <+: (act topic).1.eventsAt partitionId) :
    Grows processor (processor.onTopic topicId act).1 := by
  refine ⟨eventsAt_prefix_callOn hact, fun other hother ↦ ?_⟩
  show rowOf (callOn processor.topics topicId act).1 other ≠ none
  by_cases hsame : other = topicId
  · rw [hsame, rowOf_callOn_self, ne_eq, Option.map_eq_none_iff]
    exact hsame ▸ hother
  · rw [rowOf_callOn_ne hsame]
    exact hother

/-- Every call on a processor lets it grow. -/
theorem grows_act (call : ProcessorCall) : Grows processor (call.act processor).1 := by
  have hsame : Grows processor processor := ⟨fun _ _ ↦ List.prefix_refl _, fun _ ↦ id⟩
  cases call with
  | createTopic topicName partitionCount malloc =>
    rw [ProcessorCall.act, StreamProcessor.createTopic]
    split_ifs
    · exact hsame
    · exact hsame
    · refine ⟨eventsAt_prefix_concat _, fun topicId htopic ↦ ?_⟩
      obtain ⟨topic, hrow⟩ := Option.ne_none_iff_exists'.mp htopic
      rw [rowOf_concat_of_some hrow]
      exact Option.some_ne_none _
    · exact hsame
  | publishEvent topicId payload random now malloc =>
    have hpublished : Grows processor (processor.onTopic topicId fun topic ↦
        topic.publish (topic.partitionAt random) 0 payload now malloc).1 :=
      grows_onTopic topicId fun _ other ↦ eventsAt_prefix_publish other
    rw [ProcessorCall.act, StreamProcessor.publishEvent]
    dsimp only
    split_ifs
    · exact ⟨hpublished.events, hpublished.topics⟩
    · exact hpublished
  | publishWithKey topicId key payload now malloc =>
    exact grows_onTopic topicId fun _ other ↦ eventsAt_prefix_publish other
  | createConsumer topicId consumerGroup batchSize =>
    rw [ProcessorCall.act, StreamProcessor.createConsumer]
    split_ifs
    · exact hsame
    · exact hsame
    · exact ⟨hsame.events, hsame.topics⟩
  | onConsumer consumerId call => exact ⟨hsame.events, hsame.topics⟩

/-- A call on a consumer leaves its topic. -/
theorem topicId_act (call : ConsumerCall) :
    (call.act topics consumer).1.topicId = consumer.topicId := by
  cases call with
  | consume => exact (subscribed_consume consumer topics).1
  | _ => rfl

/-- The consumers after a call on a processor other than one on a consumer are those of before, and
one that reads a topic that exists from its start. -/
theorem mem_consumers_act {call : ProcessorCall}
    (hcall : ∀ consumerId act, call ≠ .onConsumer consumerId act)
    (hmem : consumer ∈ (call.act processor).1.consumers) :
    consumer ∈ processor.consumers ∨
      rowOf processor.topics consumer.topicId ≠ none ∧ consumer.currentPartition = 0 ∧
        consumer.currentOffset = 0 := by
  cases call with
  | createTopic topicName partitionCount malloc =>
    rw [ProcessorCall.act, StreamProcessor.createTopic] at hmem
    split_ifs at hmem <;> exact Or.inl hmem
  | publishEvent topicId payload random now malloc =>
    rw [ProcessorCall.act, StreamProcessor.publishEvent] at hmem
    dsimp only at hmem
    split_ifs at hmem <;> exact Or.inl hmem
  | publishWithKey topicId key payload now malloc => exact Or.inl hmem
  | createConsumer topicId consumerGroup batchSize =>
    rw [ProcessorCall.act, StreamProcessor.createConsumer] at hmem
    split_ifs at hmem with htopic
    · exact Or.inl hmem
    · exact Or.inl hmem
    · rcases List.mem_append.mp hmem with hold | hnew
      · exact Or.inl hold
      · obtain rfl := List.mem_singleton.mp hnew
        exact Or.inr ⟨htopic, rfl, rfl⟩
  | onConsumer consumerId act => exact absurd rfl (hcall consumerId act)

/-- Processors stay as they always are. -/
theorem Grounded.act (hgrounded : Grounded processor) (call : ProcessorCall) :
    Grounded (call.act processor).1 := by
  obtain ⟨⟨traffic, hdelivers⟩, htopics⟩ := hgrounded
  refine ⟨⟨_, hdelivers.act call⟩, fun consumer hmem ↦ (grows_act call).topics _ ?_⟩
  by_cases hcall : ∃ consumerId act, call = .onConsumer consumerId act
  · obtain ⟨consumerId, act, rfl⟩ := hcall
    have hall : ∀ consumer ∈ (ProcessorCall.act processor (.onConsumer consumerId act)).1.consumers,
        rowOf processor.topics consumer.topicId ≠ none := by
      refine (forall_mem_callOn_iff htopics).mpr fun old hold ↦ ?_
      rw [topicId_act]
      exact htopics old (mem_of_rowOf hold)
    exact hall consumer hmem
  · rcases mem_consumers_act (fun consumerId act hsame ↦ hcall ⟨consumerId, act, hsame⟩) hmem with
      hold | ⟨htopic, -⟩
    · exact htopics consumer hold
    · exact htopic

/-- Assumes: a processor is as it always is, and the offsets of its consumers are right. They are
right after a call exactly when the call meets the condition. -/
theorem offsetsInside_act_iff (hgrounded : Grounded processor)
    (hinside : ∀ consumer ∈ processor.consumers, OffsetInside processor.topics consumer)
    (call : ProcessorCall) :
    (∀ consumer ∈ (call.act processor).1.consumers,
      OffsetInside (call.act processor).1.topics consumer) ↔ call.StaysInside processor := by
  obtain ⟨traffic, hdelivers⟩ := hgrounded.logs
  by_cases hcall : ∃ consumerId act, call = .onConsumer consumerId act
  · obtain ⟨consumerId, act, rfl⟩ := hcall
    refine (forall_mem_callOn_iff hinside).trans (forall₂_congr fun consumer hrow ↦ ?_)
    have hmem := mem_of_rowOf hrow
    exact offsetInside_act_iff hdelivers.topics (hgrounded.topics consumer hmem)
      (hinside consumer hmem) act
  · have hother : ∀ consumerId act, call ≠ .onConsumer consumerId act :=
      fun consumerId act hsame ↦ hcall ⟨consumerId, act, hsame⟩
    have hstays : call.StaysInside processor := by
      cases call with
      | onConsumer consumerId act => exact absurd rfl (hother consumerId act)
      | _ => trivial
    refine iff_of_true (fun consumer hmem ↦ ?_) hstays
    have hafter := (hdelivers.act call).topics
    have htopic := (hgrounded.act call).topics consumer hmem
    rcases mem_consumers_act hother hmem with hold | ⟨-, hpartition, hoffset⟩
    · exact (hinside consumer hold).grow hdelivers.topics (hgrounded.topics consumer hold) hafter
        htopic (grows_act call).events
    · refine (offsetInside_iff hafter htopic).mpr ⟨?_, ?_⟩
      · rw [hpartition]
        decide
      · rw [hoffset]
        exact Nat.zero_le _

/-- Along every run, of all orders of publishes, subscriptions, seeks and consumes on all
processors, offsets are right in every state exactly when every call meets the condition: a seek of
a consumer does not go behind the last event of its partition, and no consumer is subscribed to a
partition from `MAX_STREAM_PARTITIONS` on. -/
theorem offsetsInside_iff (calls : List StreamCall) :
    AlongRun streamStep OffsetsInside [] calls ↔ EveryStep streamStep CallStaysInside [] calls := by
  have hnone : ∀ processor ∈ ([] : List StreamProcessor), Grounded processor :=
    fun _ hmem ↦ absurd hmem List.not_mem_nil
  refine alongRun_iff_everyStep (fun processors ↦ ∀ processor ∈ processors, Grounded processor)
    (fun _ _ ↦ True) (fun processors call hgrounded _ ↦ ?_)
    (fun processors call hgrounded _ hinside ↦ ?_) hnone
    (fun _ hmem ↦ absurd hmem List.not_mem_nil) fun _ _ _ ↦ trivial
  · cases call with
    | createProcessor name =>
      show ∀ processor ∈ (spCreateProcessor processors name).1, Grounded processor
      rw [spCreateProcessor]
      split_ifs
      · exact hgrounded
      · refine List.forall_mem_append.mpr ⟨hgrounded, List.forall_mem_singleton.mpr ⟨?_, ?_⟩⟩
        · exact ⟨noTraffic, rowsMatch_nil, rowsMatch_nil⟩
        · exact fun _ hmem ↦ absurd hmem List.not_mem_nil
    | onProcessor processorId call =>
      refine (forall_mem_callOn_iff hgrounded).mpr fun processor hrow ↦ ?_
      exact (hgrounded processor (mem_of_rowOf hrow)).act call
  · cases call with
    | createProcessor name =>
      refine iff_of_true ?_ trivial
      show OffsetsInside (spCreateProcessor processors name).1
      rw [spCreateProcessor]
      split_ifs
      · exact hinside
      · refine List.forall_mem_append.mpr ⟨hinside, List.forall_mem_singleton.mpr ?_⟩
        exact fun _ hmem ↦ absurd hmem List.not_mem_nil
    | onProcessor processorId call =>
      refine (forall_mem_callOn_iff hinside).trans (forall₂_congr fun processor hrow ↦ ?_)
      have hmem := mem_of_rowOf hrow
      exact offsetsInside_act_iff (hgrounded processor hmem) (hinside processor hmem) call

/-- A consumer of an empty partition seeks to offset 5. Its next batch would be of 10 events. -/
theorem not_offsetsInside_seek :
    ¬ AlongRun streamStep OffsetsInside []
      [.createProcessor [], .onProcessor 1 (.createTopic [] 1 true),
        .onProcessor 1 (.createConsumer 1 [] 10),
        .onProcessor 1 (.onConsumer 1 (.seekToOffset 5))] := by
  intro halong
  have hinside := halong _ (List.prefix_refl _) _ List.mem_cons_self _ List.mem_cons_self
  exact absurd hinside.slice (by decide)

end OneOS.Streams

import K2eg.Model.QueueMetadata

/-! # Which consumers keep a monitor alive

The metadata of a queue hold the groups of all topics. So the consumers of another topic keep a
monitor alive, and an error in the question for one of them leaves it undecided. -/

namespace K2eg

namespace KafkaBrokers

/-! ## The metadata -/

variable {brokers : KafkaBrokers}

/-- The listing fails, or the question for one of the groups. -/
def Fails (brokers : KafkaBrokers) : Prop :=
  brokers.listFails = true ∨ ∃ group ∈ brokers.groups, group.err = true

instance (brokers : KafkaBrokers) : Decidable brokers.Fails :=
  inferInstanceAs (Decidable (_ ∨ _))

/-- A group is looked up under an id that no other group has. -/
theorem filter_groupId {groups : List ConsumerGroup}
    (hnodup : (groups.map ConsumerGroup.groupId).Nodup) {group : ConsumerGroup}
    (hmem : group ∈ groups) :
    (groups.filter fun gi => decide (gi.groupId = group.groupId)) = [group] := by
  induction groups with
  | nil => cases hmem
  | cons head rest ih =>
      obtain ⟨hhead, hrest⟩ := List.nodup_cons.1 hnodup
      rcases List.mem_cons.1 hmem with rfl | hmem
      · have hnone : (rest.filter fun gi => decide (gi.groupId = group.groupId)) = [] := by
          refine List.filter_eq_nil_iff.2 fun other hother => ?_
          rw [decide_eq_true_eq]
          exact fun heq => hhead (heq ▸ List.mem_map_of_mem hother)
        rw [List.filter_cons_of_pos (by simp), hnone]
      · have hne : head.groupId ≠ group.groupId := fun heq =>
          hhead (heq ▸ List.mem_map_of_mem hmem)
        rw [List.filter_cons_of_neg (by simpa using hne)]
        exact ih hrest hmem

theorem getGroupInfo_eq {group : ConsumerGroup} (hmem : group ∈ brokers.groups) :
    brokers.getGroupInfo group.groupId =
      if group.err then .error .thrown
      else .ok { name := group.groupId, subscribers := group.members.map GroupMember.info } := by
  rw [getGroupInfo, filter_groupId brokers.groupIds_nodup hmem]
  simp

/-- What is reported of the groups whose questions are answered. -/
def reported (groups : List ConsumerGroup) : List QueueSubscriberGroupInfo :=
  (groups.filter fun group => group.members ≠ []).map fun group =>
    { name := group.groupId, subscribers := group.members.map GroupMember.info }

theorem scanGroups_eq {groups : List ConsumerGroup}
    (hsub : ∀ group ∈ groups, group ∈ brokers.groups) :
    brokers.scanGroups groups =
      if groups.any ConsumerGroup.err then .error .thrown else .ok (reported groups) := by
  induction groups with
  | nil => rfl
  | cons group rest ih =>
      obtain ⟨hgroup, hrest⟩ := List.forall_mem_cons.1 hsub
      rw [scanGroups, getGroupInfo_eq hgroup, ih hrest]
      cases herr : group.err with
      | true => simp [herr, bind, Except.bind]
      | false =>
          cases hany : rest.any ConsumerGroup.err with
          | true => simp [herr, hany, bind, Except.bind]
          | false =>
              by_cases hmembers : group.members = [] <;>
                simp [herr, hany, hmembers, reported, bind, Except.bind, pure, Except.pure]

/-- The metadata do not depend on the queue. -/
theorem metadata_eq (queueName : String) :
    brokers.metadata queueName =
      if brokers.Fails then none
      else some ((reported brokers.groups).map fun cg =>
        { name := cg.name, subscribers := cg.subscribers.length }) := by
  rw [metadata, getQueueMetadata, scanGroups_eq fun _ hmem => hmem]
  by_cases hlist : brokers.listFails = true
  · have hfails : brokers.Fails := .inl hlist
    rw [if_pos hlist, if_pos hfails]
  · rw [if_neg hlist]
    by_cases hany : brokers.groups.any ConsumerGroup.err = true
    · have hfails : brokers.Fails := .inr (List.any_eq_true.1 hany)
      rw [if_pos hany, if_pos hfails]
      rfl
    · have hfails : ¬ brokers.Fails := by
        rintro (hfails | hfails)
        · exact hlist hfails
        · exact hany (List.any_eq_true.2 hfails)
      rw [if_neg hany, if_neg hfails]
      rfl

end KafkaBrokers

namespace MonitorChecker

open KafkaBrokers

variable {checker : MonitorChecker} {brokers : KafkaBrokers}

/-! ## The counting -/

/-- The scan counts the group: it has a member, and no regular expression excludes it. -/
def Counts (checker : MonitorChecker) (group : ConsumerGroup) : Prop :=
  group.members ≠ [] ∧ checker.configuration.excludeConsumer group.groupId = false

instance (checker : MonitorChecker) (group : ConsumerGroup) : Decidable (checker.Counts group) :=
  inferInstanceAs (Decidable (_ ∧ _))

/-- A group of any topic is counted. -/
def CountsAny (checker : MonitorChecker) (brokers : KafkaBrokers) : Prop :=
  ∃ group ∈ brokers.groups, checker.Counts group

instance (checker : MonitorChecker) (brokers : KafkaBrokers) :
    Decidable (checker.CountsAny brokers) :=
  inferInstanceAs (Decidable (∃ group ∈ brokers.groups, checker.Counts group))

theorem length_sub_countP_ne_zero {α : Type*} (p : α → Bool) (l : List α) :
    l.length - l.countP p ≠ 0 ↔ ∃ a ∈ l, p a = false := by
  have hle := List.countP_le_length (p := p) (l := l)
  have hall := List.countP_eq_length (p := p) (l := l)
  constructor
  case mp =>
    intro hne
    have hnot : ¬ ∀ a ∈ l, p a = true := by
      intro h
      have heq := hall.2 h
      omega
    simpa using hnot
  case mpr =>
    rintro ⟨a, ha, hp⟩ hzero
    have heq := hall.1 (by omega) a ha
    rw [hp] at heq
    cases heq

/-- What the scan reads of the groups. -/
def readGroups (groups : List ConsumerGroup) : List SubscriberGroup :=
  (reported groups).map fun cg => { name := cg.name, subscribers := cg.subscribers.length }

/-- Subscribers are left in the metadata where a group is counted. -/
theorem counted_iff (checker : MonitorChecker) (groups : List ConsumerGroup) :
    (readGroups groups).length - checker.filteredOut (readGroups groups) ≠ 0 ↔
      ∃ group ∈ groups, checker.Counts group := by
  rw [filteredOut, length_sub_countP_ne_zero]
  simp only [readGroups, reported, List.map_map]
  constructor
  case mp =>
    rintro ⟨read, hread, hcounts⟩
    obtain ⟨group, hgroup, rfl⟩ := List.mem_map.1 hread
    obtain ⟨hmem, hmembers⟩ := List.mem_filter.1 hgroup
    exact ⟨group, hmem, of_decide_eq_true hmembers, (Bool.or_eq_false_iff.1 hcounts).1⟩
  case mpr =>
    rintro ⟨group, hmem, hmembers, hexclude⟩
    refine ⟨_, List.mem_map_of_mem (List.mem_filter.2 ⟨hmem, decide_eq_true hmembers⟩), ?_⟩
    simp [hexclude, hmembers]

/-! ## The decision -/

/-- What the metadata say to the scan. -/
inductive Reading where
  | failed | counted | unread
  deriving DecidableEq, Repr

def reading (checker : MonitorChecker) (brokers : KafkaBrokers) : Reading :=
  if brokers.Fails then .failed
  else if checker.CountsAny brokers then .counted
  else .unread

/-- The monitor waits for its timeout. -/
def Waiting (checker : MonitorChecker) (row : ChannelMonitorType) (now : Int) : Prop :=
  row.startPurgeTs ≠ -1 ∧ checker.isTimeoutExpired row now = false

section Handle

variable (checker : MonitorChecker) (elementToProcess : ℕ) (names : List String) (processed : ℕ)
variable (row : ChannelMonitorType) (now : Int)

/-- The purge handler, by what the metadata say. -/
def handled : Reading → MonitorChecker
  | .failed => checker.setScan (.flagging elementToProcess names processed row 0)
  | .counted =>
    (checker.setScan (.flagging elementToProcess names processed row (-1))).record
      [.subscriberCounted row.pvName row.channelDestination]
  | .unread =>
    if row.startPurgeTs = -1 then
      checker.setScan (.flagging elementToProcess names processed row 1)
    else if checker.isTimeoutExpired row now then
      (checker.setScan (.stopping elementToProcess names processed row)).record
        [.stopBroadcast row now]
    else checker.setScan (.flagging elementToProcess names processed row 0)

/-- The handler sees no more of the brokers than the reading. -/
theorem scanHandle_eq (brokers : KafkaBrokers) (queueName : String) :
    checker.scanHandle elementToProcess names processed row (brokers.metadata queueName) now =
      checker.handled elementToProcess names processed row now (checker.reading brokers) := by
  rw [metadata_eq, reading]
  by_cases hfails : brokers.Fails
  · rw [if_pos hfails, if_pos hfails]
    rfl
  · rw [if_neg hfails, if_neg hfails]
    change checker.scanHandle elementToProcess names processed row
      (some (readGroups brokers.groups)) now = _
    rw [scanHandle]
    by_cases hcounts : checker.CountsAny brokers
    · rw [if_pos hcounts, if_pos ((checker.counted_iff brokers.groups).2 hcounts)]
      rfl
    · rw [if_neg hcounts, if_neg fun h => hcounts ((checker.counted_iff brokers.groups).1 h)]
      rfl

/-- Where no group is counted the handler does nothing only while the monitor waits. -/
theorem handled_unread_eq_failed :
    checker.handled elementToProcess names processed row now .unread =
        checker.handled elementToProcess names processed row now .failed ↔
      checker.Waiting row now := by
  rw [handled, handled, Waiting]
  by_cases hts : row.startPurgeTs = -1
  · rw [if_pos hts]
    constructor
    · intro h
      have hscan := congrArg MonitorChecker.scan h
      simp [setScan] at hscan
    · exact fun h => absurd hts h.1
  · rw [if_neg hts]
    cases hexpired : checker.isTimeoutExpired row now with
    | true =>
        constructor
        · intro h
          have hscan := congrArg MonitorChecker.scan h
          simp [setScan, record] at hscan
        · rintro ⟨-, hwaits⟩
          cases hwaits
    | false => exact ⟨fun _ => ⟨hts, rfl⟩, fun _ => rfl⟩

/-- A counted group clears the purge timestamp, and nothing else does. -/
theorem handled_counted_ne {other : Reading} (hother : other ≠ .counted) :
    checker.handled elementToProcess names processed row now .counted ≠
      checker.handled elementToProcess names processed row now other := by
  intro h
  have hscan := congrArg MonitorChecker.scan h
  cases other with
  | failed => simp [handled, setScan, record] at hscan
  | counted => exact hother rfl
  | unread =>
      simp only [handled, record, setScan] at hscan
      split at hscan
      · simp at hscan
      · split at hscan <;> simp at hscan

theorem handled_eq_iff (first second : Reading) :
    checker.handled elementToProcess names processed row now first =
        checker.handled elementToProcess names processed row now second ↔
      first = second ∨
        checker.Waiting row now ∧ first ≠ .counted ∧ second ≠ .counted := by
  have hunread := handled_unread_eq_failed checker elementToProcess names processed row now
  by_cases hfirst : first = .counted
  · subst hfirst
    constructor
    · intro h
      by_contra hnot
      exact handled_counted_ne checker elementToProcess names processed row now
        (fun hsecond => hnot (.inl hsecond.symm)) h
    · rintro (rfl | ⟨-, hne, -⟩)
      · rfl
      · exact absurd rfl hne
  by_cases hsecond : second = .counted
  · subst hsecond
    constructor
    · exact fun h => absurd h.symm
        (handled_counted_ne checker elementToProcess names processed row now hfirst)
    · rintro (rfl | ⟨-, -, hne⟩)
      · rfl
      · exact absurd rfl hne
  cases first <;> cases second <;> simp_all [eq_comm]

end Handle

/-! ## Two states of the brokers -/

/-- The two states have the same groups that are subscribed to the topic. -/
def SameConsumers (topic : String) (first second : KafkaBrokers) : Prop :=
  ∀ group : ConsumerGroup, group.Subscribed topic →
    (group ∈ first.groups ↔ group ∈ second.groups)

/-- The purge handler does the same in both states. -/
def SameDecision (checker : MonitorChecker) (row : ChannelMonitorType) (now : Int)
    (first second : KafkaBrokers) : Prop :=
  ∀ elementToProcess names processed,
    checker.scanHandle elementToProcess names processed row
        (first.metadata row.channelDestination) now =
      checker.scanHandle elementToProcess names processed row
        (second.metadata row.channelDestination) now

/-- A group that is subscribed to the topic is counted. -/
def CountsTopic (checker : MonitorChecker) (topic : String) (brokers : KafkaBrokers) : Prop :=
  ∃ group ∈ brokers.groups, group.Subscribed topic ∧ checker.Counts group

/-- A group that is not subscribed to the topic is counted. -/
def CountsOther (checker : MonitorChecker) (topic : String) (brokers : KafkaBrokers) : Prop :=
  ∃ group ∈ brokers.groups, ¬ group.Subscribed topic ∧ checker.Counts group

/-- The consumers of other topics make no difference between the two states. -/
inductive OthersAgree (checker : MonitorChecker) (row : ChannelMonitorType) (now : Int)
    (first second : KafkaBrokers) : Prop where
  /-- the questions fail in both -/
  | failing (hfirst : first.Fails) (hsecond : second.Fails)
  /-- a consumer of the topic is counted -/
  | topic (hfirst : ¬ first.Fails) (hsecond : ¬ second.Fails)
      (h : checker.CountsTopic row.channelDestination first)
  /-- a consumer of another topic is counted in both or in neither -/
  | others (hfirst : ¬ first.Fails) (hsecond : ¬ second.Fails)
      (h : checker.CountsOther row.channelDestination first ↔
        checker.CountsOther row.channelDestination second)
  /-- nothing is to be done whether the questions fail or nobody is counted -/
  | waiting (h : checker.Waiting row now) (hfirst : first.Fails ∨ ¬ checker.CountsAny first)
      (hsecond : second.Fails ∨ ¬ checker.CountsAny second)

theorem countsAny_iff (topic : String) :
    checker.CountsAny brokers ↔
      checker.CountsTopic topic brokers ∨ checker.CountsOther topic brokers := by
  constructor
  case mp =>
    rintro ⟨group, hmem, hcounts⟩
    by_cases hsubscribed : group.Subscribed topic
    · exact .inl ⟨group, hmem, hsubscribed, hcounts⟩
    · exact .inr ⟨group, hmem, hsubscribed, hcounts⟩
  case mpr =>
    rintro (⟨group, hmem, -, hcounts⟩ | ⟨group, hmem, -, hcounts⟩) <;>
      exact ⟨group, hmem, hcounts⟩

theorem SameConsumers.countsTopic {topic : String} {first second : KafkaBrokers}
    (h : SameConsumers topic first second) :
    checker.CountsTopic topic first ↔ checker.CountsTopic topic second := by
  constructor
  · rintro ⟨group, hmem, hsubscribed, hcounts⟩
    exact ⟨group, (h group hsubscribed).1 hmem, hsubscribed, hcounts⟩
  · rintro ⟨group, hmem, hsubscribed, hcounts⟩
    exact ⟨group, (h group hsubscribed).2 hmem, hsubscribed, hcounts⟩

theorem reading_counted_iff :
    checker.reading brokers = .counted ↔ ¬ brokers.Fails ∧ checker.CountsAny brokers := by
  rw [reading]
  by_cases hfails : brokers.Fails
  · simp [hfails]
  · by_cases hcounts : checker.CountsAny brokers <;> simp [hfails, hcounts]

theorem reading_ne_counted_iff :
    checker.reading brokers ≠ .counted ↔ brokers.Fails ∨ ¬ checker.CountsAny brokers := by
  rw [ne_eq, reading_counted_iff, not_and_or, not_not]

theorem reading_eq_iff (first second : KafkaBrokers) :
    checker.reading first = checker.reading second ↔
      (first.Fails ↔ second.Fails) ∧
        (¬ first.Fails → (checker.CountsAny first ↔ checker.CountsAny second)) := by
  simp only [reading]
  by_cases hfirst : first.Fails <;> by_cases hsecond : second.Fails <;>
    by_cases hone : checker.CountsAny first <;> by_cases htwo : checker.CountsAny second <;>
    simp [hfirst, hsecond, hone, htwo]

theorem sameDecision_iff_reading {row : ChannelMonitorType} {now : Int}
    {first second : KafkaBrokers} :
    checker.SameDecision row now first second ↔
      checker.reading first = checker.reading second ∨
        checker.Waiting row now ∧ checker.reading first ≠ .counted ∧
          checker.reading second ≠ .counted := by
  constructor
  case mp =>
    intro h
    have hhandled := h 0 [] 0
    rw [scanHandle_eq, scanHandle_eq] at hhandled
    exact (handled_eq_iff checker 0 [] 0 row now _ _).1 hhandled
  case mpr =>
    intro h elementToProcess names processed
    rw [scanHandle_eq, scanHandle_eq]
    exact (handled_eq_iff checker elementToProcess names processed row now _ _).2 h

/-- Two states with the same consumers of the destination lead to the same decision exactly where
the consumers of other topics agree. -/
theorem sameDecision_iff {row : ChannelMonitorType} {now : Int} {first second : KafkaBrokers}
    (h : SameConsumers row.channelDestination first second) :
    checker.SameDecision row now first second ↔ checker.OthersAgree row now first second := by
  rw [sameDecision_iff_reading, reading_eq_iff, reading_ne_counted_iff, reading_ne_counted_iff]
  have htopic : checker.CountsTopic row.channelDestination first ↔
      checker.CountsTopic row.channelDestination second := h.countsTopic
  constructor
  case mp =>
    rintro (⟨hfails, hcounts⟩ | ⟨hwaiting, hfirst, hsecond⟩)
    · by_cases hfirst : first.Fails
      · exact .failing hfirst (hfails.1 hfirst)
      have hsecond : ¬ second.Fails := fun hsecond => hfirst (hfails.2 hsecond)
      have hany := hcounts hfirst
      rw [countsAny_iff row.channelDestination, countsAny_iff row.channelDestination,
        ← htopic] at hany
      by_cases hone : checker.CountsTopic row.channelDestination first
      · exact .topic hfirst hsecond hone
      · simp only [hone, false_or] at hany
        exact .others hfirst hsecond hany
    · exact .waiting hwaiting hfirst hsecond
  case mpr =>
    intro hothers
    cases hothers with
    | failing hfirst hsecond =>
        exact .inl ⟨iff_of_true hfirst hsecond, fun hnot => absurd hfirst hnot⟩
    | topic hfirst hsecond hone =>
        refine .inl ⟨iff_of_false hfirst hsecond, fun _ => ?_⟩
        rw [countsAny_iff row.channelDestination, countsAny_iff row.channelDestination]
        exact iff_of_true (.inl hone) (.inl (htopic.1 hone))
    | others hfirst hsecond hother =>
        refine .inl ⟨iff_of_false hfirst hsecond, fun _ => ?_⟩
        rw [countsAny_iff row.channelDestination, countsAny_iff row.channelDestination, htopic,
          hother]
    | waiting hwaiting hfirst hsecond => exact .inr ⟨hwaiting, hfirst, hsecond⟩

/-! ## Two consumers -/

/-- A group with one consumer, of one topic. -/
def consumerOf (groupId topic : String) : ConsumerGroup where
  groupId
  members := [⟨⟨groupId, groupId ++ "-1", "/10.0.0.1"⟩, [topic]⟩]

def strictChecker : MonitorChecker :=
  MonitorChecker.initial ⟨3600, true, fun _ => false⟩ 0

/-- The row of a monitor for `"topic-a"` whose purge timestamp is not set. -/
def activeRow : ChannelMonitorType where
  pvName := "pva://a"
  eventSerialization := 1
  channelDestination := "topic-a"

/-- No group at all. -/
def noGroups : KafkaBrokers where
  groups := []
  groupIds_nodup := List.nodup_nil

/-- One group, which reads `"topic-b"`. -/
def otherGroup : KafkaBrokers where
  groups := [consumerOf "archiver" "topic-b"]
  groupIds_nodup := by decide

/-- The group of `"topic-b"` and a group of `"topic-a"`. -/
def bothGroups : KafkaBrokers where
  groups := [consumerOf "archiver" "topic-b", consumerOf "display" "topic-a"]
  groupIds_nodup := by decide

/-- The group of `"topic-a"`. -/
def topicGroup : KafkaBrokers where
  groups := [consumerOf "display" "topic-a"]
  groupIds_nodup := by decide

theorem sameConsumers_bothGroups :
    SameConsumers activeRow.channelDestination bothGroups topicGroup := by
  intro group hsubscribed
  simp only [bothGroups, topicGroup, List.mem_cons, List.not_mem_nil, or_false]
  refine ⟨?_, .inr⟩
  rintro (rfl | rfl)
  · obtain ⟨member, hmember, htopic⟩ := hsubscribed
    obtain rfl := List.mem_singleton.1 hmember
    revert htopic
    decide
  · rfl

theorem sameDecision_bothGroups : strictChecker.SameDecision activeRow 0 bothGroups topicGroup :=
  (sameDecision_iff sameConsumers_bothGroups).2
    (.topic (by decide) (by decide)
      ⟨consumerOf "display" "topic-a", by decide, ⟨_, List.mem_singleton_self _, by decide⟩,
        by decide⟩)

/-- Nobody reads `"topic-a"`, in both states, and no question fails. The consumer of `"topic-b"`
keeps its monitor alive. -/
theorem not_sameDecision_otherGroup :
    SameConsumers activeRow.channelDestination noGroups otherGroup ∧
      ¬ noGroups.Fails ∧ ¬ otherGroup.Fails ∧
      ¬ strictChecker.SameDecision activeRow 0 noGroups otherGroup := by
  refine ⟨?_, by decide, by decide, ?_⟩
  · refine fun group hsubscribed => iff_of_false List.not_mem_nil fun hmem => ?_
    obtain rfl := List.mem_singleton.1 hmem
    obtain ⟨member, hmember, htopic⟩ := hsubscribed
    obtain rfl := List.mem_singleton.1 hmember
    revert htopic
    decide
  · intro h
    have hscan := congrArg MonitorChecker.scan (h 0 [] 0)
    revert hscan
    decide

end MonitorChecker

end K2eg

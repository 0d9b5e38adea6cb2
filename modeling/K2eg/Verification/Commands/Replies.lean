import K2eg.Model.CommandWorkers
import K2eg.Verification.Commands.Parsing

/-! # One reply to a put and to a get

A task that looks at an operation until it is done or the time is over replies once at its end. No
reply is pushed where an exception leaves the worker before: where the bytes of a put are not
unpacked, and where the value of a get is not there or is not serialized. -/

namespace K2eg

open Msgpack (Object)

/-! ## Polling -/

section Completion

variable {Op Notice Result : Type} {notify : Op → Notice → Op} {isDone : Op → Bool}
  {onTimeout : Result} {onDone : Op → Result} {info : WorkerAsyncOperation}

theorem isTimeout_of_not {now : Int} (h : (info.isTimeout now).1 = false) :
    (info.isTimeout now).2 = info := by
  rw [WorkerAsyncOperation.isTimeout] at h ⊢
  split at h
  · cases h
  · rename_i hnot
    rw [if_neg hnot]

/-- The task does not outlive the timeout. -/
theorem checkCompletion_isSome {op : Op} {polls : List (Poll Notice)}
    (h : ∃ poll ∈ polls, poll.now - info.begin > info.timeoutMs * 1000000) :
    (checkCompletion notify isDone onTimeout onDone info op polls).isSome = true := by
  induction polls generalizing op with
  | nil =>
      obtain ⟨poll, hmem, -⟩ := h
      exact absurd hmem List.not_mem_nil
  | cons poll rest ih =>
      rw [checkCompletion]
      cases htimeout : (info.isTimeout poll.now).1 with
      | true => rfl
      | false =>
          by_cases hdone : isDone (poll.notices.foldl notify op) = true
          · rw [if_neg Bool.false_ne_true, if_pos hdone]
            rfl
          · rw [if_neg Bool.false_ne_true, if_neg hdone, isTimeout_of_not htimeout]
            apply ih
            obtain ⟨late, hmem, hlate⟩ := h
            rcases List.mem_cons.1 hmem with rfl | hmem
            · have hexpired : (info.isTimeout late.now).1 = true := by
                rw [WorkerAsyncOperation.isTimeout, if_pos hlate]
              rw [htimeout] at hexpired
              cases hexpired
            · exact ⟨late, hmem, hlate⟩

/-- The result is that of the timeout, or that of the operation as it was first seen done. -/
theorem checkCompletion_eq_map (op : Op) (polls : List (Poll Notice)) :
    checkCompletion notify isDone onTimeout onDone info op polls =
      (checkCompletion notify isDone none some info op polls).map fun seen =>
        seen.elim onTimeout onDone := by
  induction polls generalizing info op with
  | nil => rfl
  | cons poll rest ih =>
      simp only [checkCompletion]
      split
      · rfl
      · split
        · rfl
        · exact ih _

end Completion

/-! ## Replies -/

/-- The payload is the serialized reply of a worker with the reply id of the command. -/
def IsReplyTo (cmd : Command) (payload : SerializedMessage) : Prop :=
  (∃ error message, PutCommandReply.serialize ⟨⟨error, cmd.replyId⟩, message⟩ cmd.serialization =
      .ok (some payload)) ∨
    ∃ pvData, GetCommandReply.serialize ⟨⟨0, cmd.replyId⟩, pvData⟩ cmd.serialization =
      .ok (some payload)

/-- One reply to the command was pushed, and no exception left the worker. -/
def RepliedOnce (cmd : Command) (replies : Replies) : Prop :=
  ∃ reply, replies = .ok [reply] ∧ reply.queue = cmd.replyTopic ∧ IsReplyTo cmd reply.payload

/-- A command that is over was replied to once, and it is over once the time is. -/
structure Replies.Once {Notice : Type} (cmd : Command) (now : Int) (polls : List (Poll Notice))
    (outcome : Option Replies) : Prop where
  once : ∀ replies, outcome = some replies → RepliedOnce cmd replies
  inTime : (∃ poll ∈ polls, poll.now - now > 10000 * 1000000) → outcome.isSome = true

theorem repliedOnce_of_some {Notice : Type} {cmd : Command} {now : Int}
    {polls : List (Poll Notice)} {replies : Replies} (h : RepliedOnce cmd replies) :
    Replies.Once cmd now polls (some replies) where
  once := by
    intro found hfound
    obtain rfl := Option.some.inj hfound
    exact h
  inTime := fun _ => rfl

theorem not_repliedOnce_error (cmd : Command) (failure : Failure) :
    ¬ RepliedOnce cmd (.error failure) := by
  rintro ⟨reply, hreply, -⟩
  cases hreply

/-- A reply with a text is serialized in the types that a command has. -/
theorem serialize_putCommandReply (error : Int8) {replyId message : String}
    (hid : replyId.utf8ByteSize < 2 ^ 32) (hmessage : message.utf8ByteSize < 2 ^ 32)
    {serType : SerializationType} (htype : serType = .json ∨ serType = .msgpack) :
    ∃ payload, PutCommandReply.serialize ⟨⟨error, replyId⟩, message⟩ serType =
      .ok (some payload) := by
  rcases htype with rfl | rfl
  · by_cases hempty : message = ""
    · exact ⟨_, by rw [PutCommandReply.serialize, optionalText, if_pos hempty]; rfl⟩
    · exact ⟨_, by rw [PutCommandReply.serialize, optionalText, if_neg hempty]; rfl⟩
  · by_cases hempty : message = ""
    · simp only [PutCommandReply.serialize, serializePairs, CommandReply.pairs, optionalText,
        if_pos hempty, packMessage, packPairs, packPair, packString, List.append_nil, if_pos hid]
      exact ⟨_, rfl⟩
    · simp only [PutCommandReply.serialize, serializePairs, CommandReply.pairs, optionalText,
        if_neg hempty, packMessage, packPairs, packPair, packString, List.cons_append,
        List.nil_append, if_pos hid, if_pos hmessage]
      exact ⟨_, rfl⟩

/-! ## Puts -/

namespace PutCommandWorker

section

variable {cmd : PutCommand} (htopic : cmd.replyTopic ≠ "") (hid : cmd.replyId ≠ "")
  (hsize : cmd.replyId.utf8ByteSize < 2 ^ 32)

include htopic hid hsize

theorem manageReply_once (errorCode : Int8) {errorMessage : String}
    (hmessage : errorMessage.utf8ByteSize < 2 ^ 32) :
    RepliedOnce cmd.toCommand (manageReply errorCode errorMessage cmd) := by
  obtain ⟨payload, hpayload⟩ :=
    serialize_putCommandReply errorCode hsize hmessage cmd.serializable
  refine ⟨⟨cmd.replyTopic, "put-operation", cmd.pvName, payload,
    serializationToString cmd.serialization⟩, ?_, rfl, .inl ⟨errorCode, errorMessage, hpayload⟩⟩
  simp only [manageReply, htopic, hid, or_self, if_false, hpayload]
  rfl

theorem doneReply_once (op : SingleOperation) :
    RepliedOnce cmd.toCommand (doneReply cmd op) := by
  rw [doneReply]
  split
  · exact manageReply_once htopic hid hsize _ op.evt.message_size
  · exact manageReply_once htopic hid hsize _ (by decide)
  · exact manageReply_once htopic hid hsize _ (by decide)

/-- The task of a put replies once. -/
theorem checkPutCompletion_once (now : Int) (op : SingleOperation)
    (polls : List (Poll OperationNotice)) :
    Replies.Once cmd.toCommand now polls
      (checkPutCompletion cmd { begin := now } op polls) where
  once := by
    intro replies hreplies
    rw [checkPutCompletion, checkCompletion_eq_map, Option.map_eq_some_iff] at hreplies
    obtain ⟨seen, -, rfl⟩ := hreplies
    cases seen with
    | none => exact manageReply_once htopic hid hsize _ (by decide)
    | some op => exact doneReply_once htopic hid hsize op
  inTime := by
    intro hlate
    rw [checkPutCompletion]
    exact checkCompletion_isSome hlate

end

/-- The value is not base64, which is replied to, or its bytes are unpacked. -/
def Readable (codec : Base64Codec) (unpack : List UInt8 → Except Failure Object)
    (cmd : PutCommand) : Prop :=
  ∃ bytes, base64Decode codec cmd.value = .ok bytes ∧
    (bytes = [] ∨ ∃ object, unpack bytes = .ok object)

/-- A put is replied to once if and only if its value is readable. -/
theorem processCommand_once (codec : Base64Codec) (unpack : List UInt8 → Except Failure Object)
    {cmd : PutCommand} (htopic : cmd.replyTopic ≠ "") (hid : cmd.replyId ≠ "")
    (hsize : cmd.replyId.utf8ByteSize < 2 ^ 32) (now : Int)
    (polls : List (Poll OperationNotice)) :
    Replies.Once cmd.toCommand now polls (processCommand codec unpack cmd now polls) ↔
      Readable codec unpack cmd := by
  rw [processCommand, Readable]
  cases hdecode : base64Decode codec cmd.value with
  | error failure =>
      constructor
      · exact fun h => absurd (h.once _ rfl) (not_repliedOnce_error _ failure)
      · rintro ⟨bytes, hbytes, -⟩
        cases hbytes
  | ok bytes =>
      cases bytes with
      | nil =>
          constructor
          · exact fun _ => ⟨[], rfl, .inl rfl⟩
          · exact fun _ => repliedOnce_of_some (manageReply_once htopic hid hsize _ (by decide))
      | cons first rest =>
          simp only [unpackMsgpackObject]
          cases hunpack : unpack (first :: rest) with
          | error failure =>
              constructor
              · exact fun h => absurd (h.once _ rfl) (not_repliedOnce_error _ failure)
              · rintro ⟨bytes, hbytes, hnil | ⟨object, hobject⟩⟩
                · rw [← Except.ok.inj hbytes] at hnil
                  cases hnil
                · rw [← Except.ok.inj hbytes, hunpack] at hobject
                  cases hobject
          | ok object =>
              refine ⟨fun _ => ⟨first :: rest, rfl, .inr ⟨object, hunpack⟩⟩, fun _ => ?_⟩
              have hmap : RepliedOnce cmd.toCommand
                  (manageReply (-3) "Msgpack object need to be a map" cmd) :=
                manageReply_once htopic hid hsize (-3) (by decide)
              cases object with
              | map entries =>
                  simp only [bind_pure_comp, Functor.map]
                  cases putChannelData cmd.pvName with
                  | none =>
                      exact repliedOnce_of_some (manageReply_once htopic hid hsize _ (by decide))
                  | some putOp => exact checkPutCompletion_once htopic hid hsize now putOp polls
              | _ => exact repliedOnce_of_some hmap

end PutCommandWorker

/-! ## Gets -/

namespace GetCommandWorker

section

variable {cmd : GetCommand} (htopic : cmd.replyTopic ≠ "")
  (hsize : cmd.replyId.utf8ByteSize < 2 ^ 32)

include htopic hsize

theorem manageFaultyReply_once (errorCode : Int8) {errorMessage : String}
    (hmessage : errorMessage.utf8ByteSize < 2 ^ 32) :
    RepliedOnce cmd.toCommand (manageFaultyReply errorCode errorMessage cmd) := by
  obtain ⟨payload, hpayload⟩ :=
    serialize_putCommandReply errorCode hsize hmessage cmd.serializable
  refine ⟨⟨cmd.replyTopic, "put-operation", cmd.pvName, payload,
    serializationToString cmd.serialization⟩, ?_, rfl, .inl ⟨errorCode, errorMessage, hpayload⟩⟩
  simp only [manageFaultyReply, htopic, if_false, hpayload]
  rfl

end

/-- The data of the operation is there and serialized. -/
def Publishable (merge : GetMerger) (cmd : GetCommand) (op : GetOperation) : Prop :=
  ∃ channelData payload, op.getChannelData merge = .ok (some channelData) ∧
    GetCommandReply.serialize ⟨⟨0, cmd.replyId⟩, channelData⟩ cmd.serialization =
      .ok (some payload)

theorem successReply_once_iff (merge : GetMerger) (cmd : GetCommand) (op : GetOperation) :
    RepliedOnce cmd.toCommand (successReply merge cmd op) ↔ Publishable merge cmd op := by
  rw [successReply, Publishable]
  constructor
  case mp =>
    rintro ⟨reply, hreply, -⟩
    obtain ⟨found, hfound, hrest⟩ := Failure.bind_eq_ok.1 hreply
    cases found with
    | none => cases hrest
    | some channelData =>
        obtain ⟨serialized, hserialized, hpushed⟩ := Failure.bind_eq_ok.1 hrest
        cases serialized with
        | none => cases hpushed
        | some payload => exact ⟨channelData, payload, hfound, hserialized⟩
  case mpr =>
    rintro ⟨channelData, payload, hdata, hpayload⟩
    refine ⟨⟨cmd.replyTopic, "get-reply-message", cmd.pvName, payload,
      serializationToString cmd.serialization⟩, ?_, rfl, .inr ⟨channelData, hpayload⟩⟩
    rw [hdata]
    simp only [bind, Except.bind, hpayload]
    rfl

/-- The operation as it is first seen done, before the time is over. -/
def seenDone (now : Int) (op : GetOperation) (polls : List (Poll GetNotice)) :
    Option GetOperation :=
  (checkCompletion GetOperation.notify GetOperation.isDone none some { begin := now } op polls).join

/-- Where the operation is seen done with success, its data is there and serialized. -/
def Served (merge : GetMerger) (channelMap : String → Option String) (cmd : GetCommand) (now : Int)
    (polls : List (Poll GetNotice)) : Prop :=
  ∀ getOp op, getChannelData channelMap cmd.pvName = some getOp →
    seenDone now getOp polls = some op → op.getState.event = .success → Publishable merge cmd op

/-- A get is replied to once if and only if it is served. -/
theorem processCommand_once (merge : GetMerger) (channelMap : String → Option String)
    {cmd : GetCommand}
    (htopic : cmd.replyTopic ≠ "") (hsize : cmd.replyId.utf8ByteSize < 2 ^ 32) (now : Int)
    (polls : List (Poll GetNotice)) :
    Replies.Once cmd.toCommand now polls (processCommand merge channelMap cmd now polls) ↔
      Served merge channelMap cmd now polls := by
  rw [processCommand, Served]
  cases hget : getChannelData channelMap cmd.pvName with
  | none =>
      refine ⟨fun _ getOp _ hsome => absurd hsome.symm (Option.some_ne_none getOp), fun _ => ?_⟩
      exact repliedOnce_of_some (manageFaultyReply_once htopic hsize _ (by decide))
  | some getOp =>
      simp only [checkGetCompletion]
      rw [checkCompletion_eq_map]
      have hdone : ∀ op, RepliedOnce cmd.toCommand (doneReply merge cmd op) ↔
          (op.getState.event = .success → Publishable merge cmd op) := by
        intro op
        rw [doneReply]
        cases hevent : op.getState.event with
        | fail =>
            refine ⟨fun _ => nofun, fun _ => ?_⟩
            exact manageFaultyReply_once htopic hsize _ op.getState.message_size
        | cancel =>
            refine ⟨fun _ => nofun, fun _ => ?_⟩
            exact manageFaultyReply_once htopic hsize _ (by decide)
        | success =>
            rw [successReply_once_iff]
            exact ⟨fun h _ => h, fun h => h rfl⟩
      constructor
      case mp =>
        rintro h found op hfound hseen hsuccess
        obtain rfl := Option.some.inj hfound
        rw [seenDone, Option.join_eq_some_iff] at hseen
        have honce := h.once (doneReply merge cmd op) (by rw [hseen]; rfl)
        exact (hdone op).1 honce hsuccess
      case mpr =>
        intro h
        constructor
        case once =>
          intro replies hreplies
          obtain ⟨seen, hseen, rfl⟩ := Option.map_eq_some_iff.1 hreplies
          cases seen with
          | none => exact manageFaultyReply_once htopic hsize _ (by decide)
          | some op =>
              refine (hdone op).2 (h getOp op rfl ?_)
              rw [seenDone, hseen]
              rfl
        case inTime =>
          intro hlate
          rw [Option.isSome_map]
          exact checkCompletion_isSome hlate

end GetCommandWorker

/-! ## Commands -/

open MapToCommand in
/-- Every put and every get whose object has a topic and an id for the reply is replied to once, if
and only if the put is readable, and the get is served. -/
theorem Replies.once_iff (codec : Base64Codec) (unpack : List UInt8 → Except Failure Object)
    (merge : GetMerger) (channelMap : String → Option String) (obj : CommandObject)
    (htopic : checkReplyTopic obj.members ≠ "") (hid : checkForReplyId obj.members ≠ "")
    (now : Int) :
    (∀ cmd polls, parse obj.members = .ok (some (.put cmd)) →
      (Replies.Once cmd.toCommand now polls
        (PutCommandWorker.processCommand codec unpack cmd now polls) ↔
        PutCommandWorker.Readable codec unpack cmd)) ∧
    ∀ cmd polls, parse obj.members = .ok (some (.get cmd)) →
      (Replies.Once cmd.toCommand now polls
        (GetCommandWorker.processCommand merge channelMap cmd now polls) ↔
        GetCommandWorker.Served merge channelMap cmd now polls) := by
  have hsize := CMDController.checkForReplyId_size obj
  constructor
  · intro cmd polls hparse
    have hcommand : cmd.toCommand = command obj.members := command_of_parse _ _ hparse
    apply PutCommandWorker.processCommand_once
    · rw [hcommand]
      exact htopic
    · rw [hcommand]
      exact hid
    · rw [hcommand]
      exact hsize
  · intro cmd polls hparse
    have hcommand : cmd.toCommand = command obj.members := command_of_parse _ _ hparse
    apply GetCommandWorker.processCommand_once
    · rw [hcommand]
      exact htopic
    · rw [hcommand]
      exact hsize

/-- `{"command": "put", "pv_name": "pva://a", "value": ..., "reply_topic": "t", "reply_id": "r"}` -/
def putObject (value : String) (hvalue : value.utf8ByteSize ≤ 0x7ffffffe) : CommandObject where
  members := [(keyCommand, .string "put"), (keyPvName, .string "pva://a"),
    (keyValue, .string value), (keyReplyTopic, .string "t"), (keyReplyId, .string "r")]
  keys_nodup := by
    show [keyCommand, keyPvName, keyValue, keyReplyTopic, keyReplyId].Nodup
    decide
  strings := by
    intro key text h
    have hmem := MapToCommand.mem_of_lookup h
    simp only [List.mem_cons, Prod.mk.injEq, Json.string.injEq, List.not_mem_nil, or_false] at hmem
    rcases hmem with ⟨-, rfl⟩ | ⟨-, rfl⟩ | ⟨-, rfl⟩ | ⟨-, rfl⟩ | ⟨-, rfl⟩
    · decide
    · decide
    · exact hvalue
    · decide
    · decide

/-- The put of the object. -/
def putCommand (value : String) : PutCommand where
  replyTopic := "t"
  replyId := "r"
  pvName := "pva://a"
  value

/-- The bytes of `gA==` and `gQ==`: an empty map, and the header of a map of one pair. -/
def mapCodec : Base64Codec where
  decodedSize n := n / 4 * 3
  decode encoded := if encoded = "gA==" then [0x80] else [0x81]

/-- An empty map is unpacked; the bytes of a map without its pair are not enough. -/
def mapUnpack (data : List UInt8) : Except Failure Object :=
  if data = [0x80] then .ok (.map []) else .error .thrown

/-- An empty map is put with success. -/
theorem Replies.once_iff_put :
    Replies.Once (putCommand "gA==").toCommand 0
      [(⟨0, [.done { event := .success }]⟩ : Poll OperationNotice)]
      (PutCommandWorker.processCommand mapCodec mapUnpack (putCommand "gA==") 0
        [⟨0, [.done { event := .success }]⟩]) := by
  refine ((Replies.once_iff mapCodec mapUnpack (fun _ _ => .error .thrown) (fun _ => none)
    (putObject "gA==" (by decide)) (by decide) (by decide) 0).1 (putCommand "gA==") _ rfl).2 ?_
  exact ⟨[0x80], by decide +kernel, .inr ⟨.map [], rfl⟩⟩

/-- The bytes of the value break off: the exception of `msgpack::unpack` leaves the worker, and
nothing is pushed. -/
theorem Replies.not_once_truncated :
    ¬ ∀ (codec : Base64Codec) (unpack : List UInt8 → Except Failure Object) (obj : CommandObject)
      (cmd : PutCommand) (now : Int) (polls : List (Poll OperationNotice)),
      MapToCommand.parse obj.members = .ok (some (.put cmd)) → cmd.replyTopic ≠ "" →
        cmd.replyId ≠ "" → Replies.Once cmd.toCommand now polls
          (PutCommandWorker.processCommand codec unpack cmd now polls) := by
  intro hall
  have hthrown : PutCommandWorker.processCommand mapCodec mapUnpack (putCommand "gQ==") 0 [] =
      some (.error .thrown) := rfl
  have honce := hall mapCodec mapUnpack (putObject "gQ==" (by decide)) (putCommand "gQ==") 0 []
    rfl (by decide) (by decide)
  exact not_repliedOnce_error _ _ (honce.once _ hthrown)

end K2eg

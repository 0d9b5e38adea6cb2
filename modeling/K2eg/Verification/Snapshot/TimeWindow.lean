import K2eg.Model.CMDController
import K2eg.Model.SnapshotCommandWorker
import K2eg.Verification.Commands.Parsing

/-! # The time window of a one-shot snapshot

The number of the request is read as an `int32_t`, or replaced by the default, becomes a
`uint32_t` on its way to the operation, and then the number of milliseconds that `isTimeout`
compares with. -/

namespace K2eg

/-! ## The clock -/

namespace WorkerAsyncOperation

/-- Which look at the clock is the first that is a timeout. -/
def firstTimeout (op : WorkerAsyncOperation) : List Int → Option ℕ
  | [] => none
  | now :: rest =>
    if (op.isTimeout now).1 then some 0
    else ((op.isTimeout now).2.firstTimeout rest).map (· + 1)

/-- It is the first one for which the time is over; the looks before it change nothing. -/
theorem firstTimeout_eq (op : WorkerAsyncOperation) (times : List Int) :
    op.firstTimeout times =
      times.findIdx? fun now => decide (now - op.begin > op.timeoutMs * 1000000) := by
  induction times with
  | nil => rfl
  | cons now rest ih =>
      rw [firstTimeout, List.findIdx?_cons]
      by_cases hover : now - op.begin > op.timeoutMs * 1000000
      · simp only [isTimeout, if_pos hover, decide_eq_true hover, if_true]
      · simp only [isTimeout, if_neg hover, decide_eq_false hover, Bool.false_eq_true, if_false]
        rw [ih]

end WorkerAsyncOperation

/-! ## From the request to the operation -/

namespace MapToCommand

/-- A one-shot snapshot request that has all its fields, with a number as its time window. -/
structure SnapshotRequest (obj : JsonObject) (timeWindowMsec : Int) : Prop where
  command : obj.lookup keyCommand = some (.string "snapshot")
  pvNameList : ∃ items pvName, obj.lookup keyPvNameList = some (.array items) ∧
    Json.string pvName ∈ items
  replyTopic : ∃ topic, obj.lookup keyReplyTopic = some (.string topic)
  replyId : ∃ id, obj.lookup keyReplyId = some (.string id)
  timeWindow : obj.lookup keyTimeWindowMsec = some (.int timeWindowMsec)

/-- What the field of the command is: numbers that are no `int32_t` leave the default. -/
def timeWindowField (timeWindowMsec : Int) : Int :=
  if -2 ^ 31 ≤ timeWindowMsec ∧ timeWindowMsec < 2 ^ 31 then timeWindowMsec else 1000

theorem checkJsonField_int32 {obj : JsonObject} {key : String} {value : Int}
    (h : obj.lookup key = some (.int value)) (defaultValue : Int) :
    checkJsonField obj key valueToInt32 defaultValue =
      if -2 ^ 31 ≤ value ∧ value < 2 ^ 31 then value else defaultValue := by
  rw [checkJsonField, h]
  simp only [valueToInt32]
  by_cases hfits : -2 ^ 31 ≤ value ∧ value < 2 ^ 31
  · rw [if_pos hfits, if_pos hfits]
  · rw [if_neg hfits, if_neg hfits]

theorem stringSet_ne_nil {items : List Json} {text : String} (h : Json.string text ∈ items) :
    stringSet items ≠ [] := by
  have hmem : text ∈ stringSet items :=
    List.mem_dedup.2 (List.mem_filterMap.2 ⟨.string text, h, rfl⟩)
  exact List.ne_nil_of_mem hmem

section Parsing

variable {obj : JsonObject} {timeWindowMsec : Int} (h : SnapshotRequest obj timeWindowMsec)
include h

/-- The three fields that the parser requires are there. -/
theorem checkFields_of_request {items : List Json}
    (hitems : obj.lookup keyPvNameList = some (.array items)) :
    ∃ fields, checkFields obj
        [(keyPvNameList, .array), (keyReplyTopic, .string), (keyReplyId, .string)] =
          some fields ∧ fields.lookup keyPvNameList = some (.array items) := by
  obtain ⟨topic, htopic⟩ := h.replyTopic
  obtain ⟨id, hid⟩ := h.replyId
  have hfound : foundFields obj
      [(keyPvNameList, .array), (keyReplyTopic, .string), (keyReplyId, .string)] =
        [(keyPvNameList, .array items), (keyReplyTopic, .string topic),
          (keyReplyId, .string id)] := by
    simp [foundFields, hitems, htopic, hid, jsonKind]
  exact ⟨_, by rw [checkFields, hfound]; rfl, rfl⟩

/-- Every such request is parsed to a snapshot command, whatever its time window is. -/
theorem parse_of_request : ∃ cmd, parse obj = .ok (some (.snapshot cmd)) ∧
    cmd.timeWindowMsec = timeWindowField timeWindowMsec := by
  obtain ⟨items, pvName, hitems, hpvName⟩ := h.pvNameList
  obtain ⟨fields, hfields, hlist⟩ := checkFields_of_request h hitems
  have htype : getCMDType obj = .ok .snapshot := by
    rw [getCMDType, h.command]
    rfl
  have hcast : anyCast fields keyPvNameList valueToArray = .ok items := by
    rw [anyCast, hlist]
    rfl
  refine ⟨{ command obj with
    pvNameList := stringSet items, timeWindowMsec := timeWindowField timeWindowMsec }, ?_, rfl⟩
  simp only [parse, htype, bind, Except.bind, parseSnapshot, hfields, hcast,
    checkJsonField_int32 h.timeWindow, if_neg (stringSet_ne_nil hpvName)]
  rfl

end Parsing

end MapToCommand

namespace OneShotSnapshot

open MapToCommand CMDController

variable (channelMap : String → Option SnapshotMonitor) (cmd : SnapshotCommand)

theorem publish_info (s : OneShotSnapshot) (reply : OneShotReply) :
    (s.publish reply).info = s.info := by
  rw [publish]
  split <;> rfl

theorem collect_info (order : List String) (s : OneShotSnapshot) :
    (collect channelMap order s).info = s.info := by
  induction order generalizing s with
  | nil => rfl
  | cons pvUri rest ih =>
      rw [collect]
      split
      · rw [manageFaultyReply]
        split
        · rfl
        · exact publish_info s _
      · exact ih _

/-- The operation has the window of the command as a `uint32_t`, from the time it begins. -/
theorem submit_info (order : List String) (now : Int) :
    (submit channelMap cmd order now).info =
      { timeoutMs := cmd.timeWindowMsec % 2 ^ 32, begin := now } :=
  collect_info channelMap order _

/-- The request becomes an operation whose first timeout is the first look at the clock after more
than the given number of milliseconds. -/
def Honoured (obj : CommandObject) (timeWindowMsec : Int) : Prop :=
  ∃ cmd, (onObject obj).command = some (.snapshot cmd) ∧
    ∀ channelMap order begin times,
      (submit channelMap cmd order begin).info.firstTimeout times =
        times.findIdx? fun now => decide (now - begin > timeWindowMsec * 1000000)

/-- The request becomes no command, and its client is told so. -/
def Rejected (obj : CommandObject) : Prop :=
  (onObject obj).command = none ∧ (onObject obj).replies ≠ []

/-- The time window is the one of the request, or the request is rejected. -/
structure KeepsTimeWindow (obj : CommandObject) (timeWindowMsec : Int) : Prop where
  honoured : 0 ≤ timeWindowMsec ∧ timeWindowMsec < 2 ^ 31 → Honoured obj timeWindowMsec
  rejected : ¬ (0 ≤ timeWindowMsec ∧ timeWindowMsec < 2 ^ 31) → Rejected obj

section Request

variable {obj : CommandObject} {timeWindowMsec : Int}
variable (h : SnapshotRequest obj.members timeWindowMsec)
include h

theorem onObject_of_request : ∃ cmd, (onObject obj).command = some (.snapshot cmd) ∧
    cmd.timeWindowMsec = timeWindowField timeWindowMsec := by
  obtain ⟨cmd, hparse, hwindow⟩ := parse_of_request h
  refine ⟨cmd, ?_, hwindow⟩
  simp only [onObject, hparse]

/-- No request is rejected for its window. -/
theorem not_rejected : ¬ Rejected obj := by
  rintro ⟨hnone, -⟩
  obtain ⟨cmd, hcommand, -⟩ := onObject_of_request h
  rw [hcommand] at hnone
  cases hnone

/-- The window that is honoured is the one that the wait reads. -/
theorem honoured_of_field {window : Int}
    (hwindow : timeWindowField timeWindowMsec % 2 ^ 32 = window) : Honoured obj window := by
  obtain ⟨cmd, hcommand, hfield⟩ := onObject_of_request h
  refine ⟨cmd, hcommand, fun channelMap order begin times => ?_⟩
  rw [WorkerAsyncOperation.firstTimeout_eq, submit_info, hfield, hwindow]

/-- A negative `int32_t` wraps around to a window of more than 24 days. -/
theorem honoured_wrapped (hneg : timeWindowMsec < 0) (hfits : -2 ^ 31 ≤ timeWindowMsec) :
    Honoured obj (timeWindowMsec + 2 ^ 32) := by
  apply honoured_of_field h
  rw [timeWindowField, if_pos ⟨hfits, by omega⟩]
  omega

/-- A number that is no `int32_t` is taken for one second. -/
theorem honoured_default (hfits : ¬ (-2 ^ 31 ≤ timeWindowMsec ∧ timeWindowMsec < 2 ^ 31)) :
    Honoured obj 1000 := by
  apply honoured_of_field h
  rw [timeWindowField, if_neg hfits]
  rfl

/-- The time window is kept exactly where it is an `int32_t` and not negative; no request is
rejected for its window. -/
theorem keepsTimeWindow_iff :
    KeepsTimeWindow obj timeWindowMsec ↔ 0 ≤ timeWindowMsec ∧ timeWindowMsec < 2 ^ 31 := by
  constructor
  case mp =>
    intro hkeeps
    by_contra hbad
    exact not_rejected h (hkeeps.rejected hbad)
  case mpr =>
    intro hgood
    have hwindow : timeWindowField timeWindowMsec % 2 ^ 32 = timeWindowMsec := by
      rw [timeWindowField, if_pos ⟨by omega, hgood.2⟩]
      omega
    exact ⟨fun _ => honoured_of_field h hwindow, fun hbad => absurd hgood hbad⟩

end Request

/-- `{"command": "snapshot", "pv_name_list": ["pva://a"], "reply_topic": "t", "reply_id": "r",
"time_window_msec": timeWindowMsec}` -/
def windowRequest (timeWindowMsec : Int) : CommandObject where
  members := [(keyCommand, .string "snapshot"), (keyPvNameList, .array [.string "pva://a"]),
    (keyReplyTopic, .string "t"), (keyReplyId, .string "r"),
    (keyTimeWindowMsec, .int timeWindowMsec)]
  keys_nodup := show List.Nodup
    [keyCommand, keyPvNameList, keyReplyTopic, keyReplyId, keyTimeWindowMsec] by decide
  strings := by
    intro key text hlookup
    have hmem := mem_of_lookup hlookup
    simp only [List.mem_cons, Prod.mk.injEq, reduceCtorEq, and_false, Json.string.injEq,
      List.not_mem_nil, or_false, false_or] at hmem
    rcases hmem with ⟨-, rfl⟩ | ⟨-, rfl⟩ | ⟨-, rfl⟩ <;> decide

theorem windowRequest_request (timeWindowMsec : Int) :
    SnapshotRequest (windowRequest timeWindowMsec).members timeWindowMsec where
  command := rfl
  pvNameList := ⟨[.string "pva://a"], "pva://a", rfl, List.mem_singleton_self _⟩
  replyTopic := ⟨"t", rfl⟩
  replyId := ⟨"r", rfl⟩
  timeWindow := rfl

theorem keepsTimeWindow_one : KeepsTimeWindow (windowRequest 1) 1 :=
  (keepsTimeWindow_iff (windowRequest_request 1)).2 (by decide)

/-- The request for a window of -1 milliseconds is accepted, and its window is 4294967295
milliseconds. -/
theorem not_keepsTimeWindow_negative :
    ¬ KeepsTimeWindow (windowRequest (-1)) (-1) ∧ Honoured (windowRequest (-1)) 4294967295 := by
  have hrequest := windowRequest_request (-1)
  refine ⟨fun hkeeps => ?_, honoured_wrapped hrequest (by decide) (by decide)⟩
  exact not_rejected hrequest (hkeeps.rejected (by decide))

end OneShotSnapshot

end K2eg

import Nl2SqlAgent.StringParity
import Nl2SqlAgent.TaskStream

/-! The event streams of a task in the gateway and in the API, for the same polled states.
The API sends up to three events for a poll. The gateway sends one a round, keeps the
others in its cursor and polls again before it sends them. -/
namespace Nl2SqlAgent

open Lib

namespace StreamParity

open JavaTaskState (TaskState decode)
open TaskStream (SseEvent EventCursor Waited Command)

deriving instance DecidableEq for SseEvent

/-- A document of the shape that the writers give it. -/
abbrev State := { d : Doc // JavaTaskState.Shaped d }

/-- A server-sent event, with its data as a JSON value. -/
structure Event where
  name : String
  data : Json
  deriving DecidableEq

/-- `state.get(key, default)`. -/
def get (d : Doc) (key : String) (default : Json) : Json := (d.lookup key).getD default

/-- The same of a field that holds a text or `None`. -/
def text (d : Doc) (key : String) (default : Option String) : Option String :=
  match d.lookup key with
  | none => default
  | some (.str s) => some s
  | some _ => none

structure Seen where
  lastUpdated : Option String := some ""
  lastNode : Option String := some ""

def statusData (d : Doc) : Json :=
  .obj [("status", get d "status" (.str "?")), ("progress", get d "progress" (.int 0)),
    ("node", get d "node" (.str "")),
    ("sql_preview", .str (Py.take 200 ((text d "sql" none).getD ""))), ("error", get d "error" .null)]

def completeData (d : Doc) : Json :=
  .obj [("status", get d "status" (.str "?")), ("sql", get d "sql" (.str "")),
    ("exec_result", get d "exec_result" .null), ("token_usage", get d "token_usage" (.obj [])),
    ("node_timings", get d "node_timings" (.obj [])), ("error", get d "error" .null)]

def isOver (d : Doc) : Bool :=
  text d "status" (some "?") ∈ [some "SUCCESS", some "FAILED", some "TIMEOUT", some "CANCELLED"]

/-- `node and node != last_node`. -/
def nodeChanged (seen : Seen) (d : Doc) : Bool :=
  Py.truthy (text d "node" (some "")) ∧ text d "node" (some "") ≠ seen.lastNode

def statusEvents (seen : Seen) (d : Doc) : List Event :=
  if text d "updated_at" (some "") = seen.lastUpdated then [] else [⟨"status", statusData d⟩]

def nodeEvents (seen : Seen) (d : Doc) : List Event :=
  if nodeChanged seen d then
    [⟨"node_done", .obj [("node", TaskStore.text (text d "node" (some "")))]⟩]
  else []

def Seen.next (seen : Seen) (d : Doc) : Seen where
  lastUpdated := text d "updated_at" (some "")
  lastNode := if nodeChanged seen d then text d "node" (some "") else seen.lastNode

def timeoutEvent : Event := ⟨"timeout", .obj [("error", .str "Stream timeout (5 min)")]⟩

/-- What `event_generator` sends beside the tokens, for the states that its polls see until
the deadline. -/
def eventGenerator (seen : Seen) : List (Option State) → List Event
  | [] => [timeoutEvent]
  | none :: _ => [⟨"error", .obj [("error", .str "Task not found")]⟩]
  | some d :: polls =>
    statusEvents seen d.1 ++ nodeEvents seen d.1 ++
      if isOver d.1 then [⟨"complete", completeData d.1⟩] else eventGenerator (seen.next d.1) polls

/-- A round of the loop: a token was waiting, or the state was polled and a token waited for. -/
inductive Round where
  | token (text : String)
  | polled (state : Option State) (waited : Waited)

/-- What the commands of the round are answered. -/
def Round.answer : Round → (e : Command) → e.Answer
  | .token text, .poll => some text
  | .polled _ _, .poll => none
  | .token _, .get => .done none
  | .polled state _, .get => .done (state.bind fun d => decode d.1)
  | .token _, .wait => .nothing
  | .polled _ waited, .wait => waited
  | _, .check => .done none
  | _, .owner => .done none
  | _, .reject _ _ => ()
  | _, .subscribe => true
  | _, .emit _ => true
  | _, .close => ()

/-- The loop of `stream`, for the rounds until the deadline. -/
def stream (cursor : EventCursor) : List Round → List SseEvent
  | [] => [.timeout "Stream timeout (5 min)"]
  | round :: rounds =>
    match (TaskStream.nextEvent cursor).result round.answer with
    | none => []
    | some (none, cursor) => stream cursor rounds
    | some (some event, cursor) => event :: if event.ends then [] else stream cursor rounds

/-- The event as it is written; the data keep the order of the map. -/
def wire : SseEvent → Event
  | .token text => ⟨"token", .obj [("text", .str text)]⟩
  | .status status progress node sqlPreview error =>
    ⟨"status", .obj [("status", TaskStore.text status), ("progress", .int progress),
      ("node", .str node), ("sql_preview", .str sqlPreview), ("error", error)]⟩
  | .nodeDone node => ⟨"node_done", .obj [("node", .str node)]⟩
  | .complete status sql execResult tokenUsage nodeTimings error =>
    ⟨"complete", .obj [("status", TaskStore.text status), ("sql", .str sql),
      ("exec_result", execResult), ("token_usage", JavaTaskState.writeFields tokenUsage),
      ("node_timings", JavaTaskState.writeFields nodeTimings), ("error", error)]⟩
  | .error text => ⟨"error", .obj [("error", .str text)]⟩
  | .timeout text => ⟨"timeout", .obj [("error", .str text)]⟩

def isToken : SseEvent → Bool
  | .token _ => true
  | _ => false

/-- What is written beside the tokens. -/
def sent (events : List SseEvent) : List Event := (events.filter fun e => !isToken e).map wire

def polls : List Round → List (Option State)
  | [] => []
  | .token _ :: rounds => polls rounds
  | .polled state _ :: rounds => state :: polls rounds

/-- The events in the cursor, in the order in which they are sent. -/
def pending (cursor : EventCursor) : List SseEvent :=
  if cursor.notFound then [.error "Task not found"]
  else cursor.pendingStatus.toList ++ cursor.pendingNode.toList ++ cursor.completeEvent.toList

/-- The API writes the same status event for the document: the fields are there, the node and
the progress are not null, and the preview is not cut short. -/
def StatusAlike (d : Doc) (s : TaskState) : Prop :=
  d.lookup "status" ≠ none ∧ d.lookup "progress" ≠ some .null ∧ d.lookup "node" ≠ some .null ∧
    StringParity.Fits 200 (s.sql.getD "")

/-- A poll that finds news while nothing that must be sent before is pending. -/
def News (cursor : EventCursor) (d : Doc) (s : TaskState) (updatedAt : String) : Prop :=
  (updatedAt = cursor.lastUpdated ∨ (pending cursor = [] ∧ StatusAlike d s)) ∧
    (s.node.getD cursor.lastNode = cursor.lastNode ∨
      (cursor.pendingNode = none ∧ cursor.completeEvent = none ∧ s.node ≠ some "")) ∧
    (TaskStream.isOver s = true →
      (cursor.completeEvent = none ∧ d.lookup "sql" ≠ some .null) ∨
        cursor.completeEvent = some (TaskStream.overEvent s))

/-- A poll that disturbs nothing: it finds no task while no event is pending, or a task that
the gateway can read, with news in their turn. After a poll without a task only a state
that cannot be polled disturbs the stream. -/
def Orderly (cursor : EventCursor) : Option State → Prop
  | none => cursor.notFound = true ∨ pending cursor = []
  | some d =>
    match decode d.1 with
    | none => cursor.notFound = true
    | some s =>
      match s.updatedAt with
      | none => False
      | some updatedAt => cursor.notFound = true ∨ News cursor d.1 s updatedAt

/-- Every poll is orderly, and no event is pending at the deadline. -/
def Steady (cursor : EventCursor) : List Round → Prop
  | [] => pending cursor = []
  | round :: rounds =>
    (match round with
      | .token _ => True
      | .polled state _ => Orderly cursor state) ∧
    match (TaskStream.nextEvent cursor).result round.answer with
    | none => True
    | some (none, cursor) => Steady cursor rounds
    | some (some event, cursor) => event.ends = true ∨ Steady cursor rounds

section Poll

variable {d : Doc} {s : TaskState} {cursor : EventCursor} {seen : Seen} {key updatedAt : String}

theorem lookup_of_read {t : String}
    (reading : JavaTaskState.Read d key none JavaTaskState.readText (some t)) :
    d.lookup key = some (.str t) := by
  cases reading with
  | missing _ same => contradiction
  | present value found accepted => rw [found, ← JavaTaskState.readText_inverse accepted, TaskStore.text]

theorem text_of_lookup {t : String} {default : Option String}
    (found : d.lookup key = some (.str t)) : text d key default = some t := by
  simp only [text, found]

/-- A field that the gateway reads as `null` is missing or `None` in the API. -/
theorem text_none (default : Option String)
    (reading : JavaTaskState.Read d key none JavaTaskState.readText none) :
    text d key default = default ∨ text d key default = none := by
  cases reading with
  | missing absent _ => simp [text, absent]
  | present value found accepted =>
    have null : value = .null := (JavaTaskState.readText_inverse accepted).symm
    simp [text, found, null]

theorem text_default_none {t : Option String}
    (reading : JavaTaskState.Read d key none JavaTaskState.readText t) : text d key none = t := by
  cases t with
  | none => rcases text_none none reading with same | same <;> exact same
  | some t => exact text_of_lookup (lookup_of_read reading)

theorem isOver_iff (decoded : decode d = some s) : isOver d = TaskStream.isOver s := by
  have reading := (JavaTaskState.decode_decoded decoded).status
  cases status : s.status with
  | none =>
    rw [status] at reading
    rcases text_none (some "?") reading with same | same <;>
      simp [isOver, TaskStream.isOver, same, status]
  | some t =>
    rw [status] at reading
    rw [isOver, text_of_lookup (lookup_of_read reading), TaskStream.isOver, status]

theorem nodeChanged_iff (seen : Seen) (decoded : decode d = some s) :
    nodeChanged seen d = true ↔ ∃ node, s.node = some node ∧ node ≠ "" ∧ some node ≠ seen.lastNode := by
  have reading := (JavaTaskState.decode_decoded decoded).node
  cases node : s.node with
  | none =>
    rw [node] at reading
    rcases text_none (some "") reading with same | same <;> simp [nodeChanged, same]
  | some n =>
    rw [node] at reading
    simp [nodeChanged, text_of_lookup (lookup_of_read reading), Py.truthy]

theorem get_status (decoded : decode d = some s) (present : d.lookup "status" ≠ none) :
    get d "status" (.str "?") = TaskStore.text s.status := by
  rw [JavaTaskState.read_text (JavaTaskState.decode_decoded decoded).status]
  obtain ⟨value, found⟩ := Option.ne_none_iff_exists'.mp present
  simp [get, found]

theorem get_error (decoded : decode d = some s) : get d "error" .null = s.error :=
  (JavaTaskState.read_any (JavaTaskState.decode_decoded decoded).error).symm

theorem get_progress (decoded : decode d = some s) (number : d.lookup "progress" ≠ some .null) :
    get d "progress" (.int 0) = .int s.progress := by
  cases (JavaTaskState.decode_decoded decoded).progress with
  | missing absent same => simp [get, absent, same]
  | present value found accepted =>
    cases value with
    | null => exact absurd found number
    | int n =>
      obtain ⟨-, same⟩ := Option.ite_none_right_eq_some.mp accepted
      simp [get, found, Option.some.inj same]
    | _ => exact nomatch accepted

/-- A text that is not `null` is sent alike, the empty one where it is missing. -/
theorem get_text {t : Option String}
    (reading : JavaTaskState.Read d key none JavaTaskState.readText t)
    (given : d.lookup key ≠ some .null) : get d key (.str "") = .str (t.getD "") := by
  cases reading with
  | missing absent same => simp [get, absent, same]
  | present value found accepted =>
    cases value with
    | null => exact absurd found given
    | str s =>
      obtain rfl := Option.some.inj accepted
      simp [get, found]
    | _ => exact nomatch accepted

theorem get_fields {fields : JavaTaskState.Fields}
    (reading : JavaTaskState.Read d key (some []) JavaTaskState.readFields fields) :
    get d key (.obj []) = JavaTaskState.writeFields fields := by
  cases reading with
  | missing absent same => simp [get, absent, same, JavaTaskState.writeFields]
  | present value found accepted => simp [get, found, JavaTaskState.readFields_inverse accepted]

theorem wire_status (decoded : decode d = some s) (alike : StatusAlike d s) :
    wire (TaskStream.statusEvent s) = ⟨"status", statusData d⟩ := by
  obtain ⟨present, number, node, fits⟩ := alike
  have fields := JavaTaskState.decode_decoded decoded
  have preview := (StringParity.cut_eq_iff 200 (s.sql.getD "")).mpr fits
  simp only [TaskStream.statusEvent, wire, statusData, get_status decoded present,
    get_progress decoded number, get_text fields.node node, get_error decoded,
    text_default_none fields.sql, preview]

theorem wire_complete (decoded : decode d = some s) (ended : TaskStream.isOver s = true)
    (given : d.lookup "sql" ≠ some .null) :
    wire (TaskStream.overEvent s) = ⟨"complete", completeData d⟩ := by
  have fields := JavaTaskState.decode_decoded decoded
  have present : d.lookup "status" ≠ none := by
    intro absent
    cases fields.status with
    | missing _ same => simp [TaskStream.isOver, same] at ended
    | present value found _ => exact absurd (absent.symm.trans found) (by simp)
  have result : get d "exec_result" .null = s.execResult :=
    (JavaTaskState.read_any fields.execResult).symm
  simp only [TaskStream.overEvent, wire, completeData, get_status decoded present,
    get_text fields.sql given, result, get_fields fields.tokenUsage, get_fields fields.nodeTimings,
    get_error decoded]

/-- The API has sent its last event. -/
def closed (cursor : EventCursor) : Bool := cursor.notFound || cursor.completeEvent.isSome

/-- Both sides compare with the same state. -/
structure Synced (cursor : EventCursor) (seen : Seen) : Prop where
  lastUpdated : seen.lastUpdated = some cursor.lastUpdated
  lastNode : seen.lastNode = some cursor.lastNode

theorem statusEvents_eq (decoded : decode d = some s) (updated : s.updatedAt = some updatedAt)
    (synced : Synced cursor seen)
    (news : updatedAt = cursor.lastUpdated ∨ (pending cursor = [] ∧ StatusAlike d s)) :
    statusEvents seen d =
      if updatedAt = cursor.lastUpdated then [] else [wire (TaskStream.statusEvent s)] := by
  have reading := (JavaTaskState.decode_decoded decoded).updatedAt
  rw [updated] at reading
  simp only [statusEvents, text_of_lookup (lookup_of_read reading), synced.lastUpdated,
    Option.some.injEq]
  rcases news with same | ⟨-, alike⟩
  · simp [same]
  · rw [wire_status decoded alike]

theorem nodeEvents_eq (decoded : decode d = some s) (synced : Synced cursor seen)
    (named : s.node.getD cursor.lastNode = cursor.lastNode ∨ s.node ≠ some "") :
    nodeEvents seen d =
      if s.node.getD cursor.lastNode = cursor.lastNode then []
      else [wire (.nodeDone (s.node.getD ""))] := by
  have changed := nodeChanged_iff seen decoded
  rw [synced.lastNode] at changed
  cases node : s.node with
  | none =>
    have same : nodeChanged seen d = false := by
      rw [← Bool.not_eq_true, changed]
      simp [node]
    simp [nodeEvents, same]
  | some n =>
    have reading := (JavaTaskState.decode_decoded decoded).node
    rw [node] at reading named
    simp only [Option.getD_some, ne_eq, Option.some.injEq] at named ⊢
    by_cases same : n = cursor.lastNode
    · have unchanged : nodeChanged seen d = false := by
        rw [← Bool.not_eq_true, changed]
        simp [node, same]
      simp [nodeEvents, unchanged, same]
    · have new : nodeChanged seen d = true :=
        changed.mpr ⟨n, node, named.resolve_left same, by simpa using same⟩
      simp [nodeEvents, new, same, text_of_lookup (lookup_of_read reading), wire, TaskStore.text]

theorem pending_open (cursor : EventCursor) (found : cursor.notFound = false) :
    pending cursor = cursor.pendingStatus.toList ++ cursor.pendingNode.toList ++
      cursor.completeEvent.toList := by
  simp [pending, found]

/-- A poll with news in their turn puts behind the pending events what the API sends for it,
or nothing when the API has sent its last event. -/
theorem pending_seen (decoded : decode d = some s) (updated : s.updatedAt = some updatedAt)
    (synced : closed cursor = false → Synced cursor seen) (found : cursor.notFound = false)
    (news : News cursor d s updatedAt) :
    (pending (cursor.seen s updatedAt)).map wire = (pending cursor).map wire ++
      if closed cursor then []
      else statusEvents seen d ++ nodeEvents seen d ++
        if isOver d then [⟨"complete", completeData d⟩] else [] := by
  obtain ⟨status, node, final⟩ := news
  have nodes : (cursor.seen s updatedAt).pendingNode =
      if s.node.getD cursor.lastNode = cursor.lastNode then cursor.pendingNode
      else some (.nodeDone (s.node.getD "")) := by
    cases named : s.node <;> simp [EventCursor.seen, named]
  have statuses : (cursor.seen s updatedAt).pendingStatus =
      if updatedAt = cursor.lastUpdated then cursor.pendingStatus
      else some (TaskStream.statusEvent s) := rfl
  rw [pending_open (cursor.seen s updatedAt) found, pending_open cursor found, nodes, statuses]
  change List.map wire (_ ++ _ ++ (if TaskStream.isOver s then some (TaskStream.overEvent s)
    else cursor.completeEvent).toList) = _
  cases ended : cursor.completeEvent with
  | some event =>
    have shut : closed cursor = true := by simp [closed, ended]
    have same : updatedAt = cursor.lastUpdated :=
      status.resolve_right fun turn => by
        have none_left := turn.1
        rw [pending_open cursor found, ended] at none_left
        simp at none_left
    have still : s.node.getD cursor.lastNode = cursor.lastNode :=
      node.resolve_right fun turn => by simp [ended] at turn
    have last : (if TaskStream.isOver s then some (TaskStream.overEvent s) else some event) =
        some event := by
      by_cases ended' : TaskStream.isOver s = true
      · rw [if_pos ended']
        rcases final ended' with ⟨none_left, -⟩ | again
        · rw [ended] at none_left
          contradiction
        · rw [← again, ended]
      · rw [if_neg ended']
    rw [last, if_pos same, if_pos still, if_pos shut, List.append_nil]
  | none =>
    have opened : closed cursor = false := by simp [closed, ended, found]
    have alike := synced opened
    have completes : (if TaskStream.isOver s then some (TaskStream.overEvent s) else none).toList.map
        wire = if isOver d then [⟨"complete", completeData d⟩] else [] := by
      rw [isOver_iff decoded]
      by_cases ended' : TaskStream.isOver s = true
      · rcases final ended' with ⟨-, given⟩ | again
        · simp [ended', wire_complete decoded ended' given]
        · rw [ended] at again
          contradiction
      · simp [ended']
    have named : s.node.getD cursor.lastNode = cursor.lastNode ∨ s.node ≠ some "" :=
      node.imp_right fun turn => turn.2.2
    rw [List.map_append, List.map_append, completes, statusEvents_eq decoded updated alike status,
      nodeEvents_eq decoded alike named, opened]
    by_cases same : updatedAt = cursor.lastUpdated
    · by_cases still : s.node.getD cursor.lastNode = cursor.lastNode
      · simp [same, still]
      · have free := (node.resolve_left still).1
        simp [same, still, free]
    · have none_left := (status.resolve_left same).1
      rw [pending_open cursor found, ended] at none_left
      obtain ⟨noStatus, noNode⟩ : cursor.pendingStatus = none ∧ cursor.pendingNode = none := by
        simpa using none_left
      by_cases still : s.node.getD cursor.lastNode = cursor.lastNode
      · simp [same, still, noStatus, noNode]
      · simp [same, still, noStatus, noNode]

theorem synced_seen (decoded : decode d = some s) (updated : s.updatedAt = some updatedAt)
    (synced : Synced cursor seen)
    (named : s.node.getD cursor.lastNode = cursor.lastNode ∨ s.node ≠ some "") :
    Synced (cursor.seen s updatedAt) (seen.next d) := by
  have fields := JavaTaskState.decode_decoded decoded
  have changed := nodeChanged_iff seen decoded
  rw [synced.lastNode] at changed
  constructor
  · have reading := fields.updatedAt
    rw [updated] at reading
    exact text_of_lookup (lookup_of_read reading)
  · change (if nodeChanged seen d then text d "node" (some "") else seen.lastNode) =
      some (s.node.getD cursor.lastNode)
    by_cases new : nodeChanged seen d = true
    · obtain ⟨node, given, -, -⟩ := changed.mp new
      have reading := fields.node
      rw [given] at reading
      rw [if_pos new, text_of_lookup (lookup_of_read reading), given, Option.getD_some]
    · rw [if_neg new, synced.lastNode]
      cases node : s.node with
      | none => rfl
      | some n =>
        rw [node] at named
        by_cases same : n = cursor.lastNode
        · rw [Option.getD_some, same]
        · refine absurd (changed.mpr ⟨n, node, ?_, ?_⟩) new
          · simpa using named.resolve_left (by simpa using same)
          · simpa using same

end Poll

/-- What the API sends from here on, unless it has sent its last event. -/
def remaining (cursor : EventCursor) (seen : Seen) (states : List (Option State)) : List Event :=
  if closed cursor then [] else eventGenerator seen states

theorem closed_of_free {cursor : EventCursor} (free : pending cursor = []) : closed cursor = false := by
  cases missing : cursor.notFound with
  | true => simp [pending, missing] at free
  | false =>
    rw [pending_open cursor missing] at free
    have ended : cursor.completeEvent = none := by simpa using (List.append_eq_nil_iff.mp free).2
    simp [closed, missing, ended]

/-- A poll moves what the API sends for it to the pending events. -/
theorem poll_moves {cursor cursor' : EventCursor} {seen : Seen} {state : Option State}
    (orderly : Orderly cursor state) (synced : closed cursor = false → Synced cursor seen)
    (polled : TaskStream.pollStatus (state.bind fun d => decode d.1) cursor = some cursor')
    (states : List (Option State)) :
    ∃ seen', (closed cursor' = false → Synced cursor' seen') ∧
      (pending cursor).map wire ++ remaining cursor seen (state :: states) =
        (pending cursor').map wire ++ remaining cursor' seen' states := by
  have lost : cursor.notFound = true → cursor'.notFound = true ∧
      (pending cursor).map wire = (pending cursor').map wire := by
    intro missing
    have still : cursor'.notFound = true := by
      cases read : state.bind fun d => decode d.1 with
      | none =>
        rw [read] at polled
        obtain rfl := Option.some.inj polled
        rfl
      | some s =>
        rw [read] at polled
        obtain ⟨updatedAt, -, rfl⟩ := Option.map_eq_some_iff.mp polled
        exact missing
    exact ⟨still, by simp [pending, missing, still]⟩
  by_cases missing : cursor.notFound = true
  · obtain ⟨still, same⟩ := lost missing
    have shut : closed cursor = true ∧ closed cursor' = true := by simp [closed, missing, still]
    exact ⟨seen, fun opened => absurd shut.2 (by simp [opened]), by
      rw [remaining, remaining, if_pos shut.1, if_pos shut.2, same]⟩
  · have found : cursor.notFound = false := Bool.eq_false_iff.mpr missing
    cases state with
    | none =>
      have none_left : pending cursor = [] := orderly.resolve_left missing
      have opened : closed cursor = false := closed_of_free none_left
      obtain rfl : { cursor with notFound := true } = cursor' := Option.some.inj polled
      refine ⟨seen, fun still => by simp [closed] at still, ?_⟩
      rw [remaining, remaining, opened, none_left]
      rfl
    | some d =>
      simp only [Orderly] at orderly
      cases decoded : decode d.1 with
      | none =>
        rw [decoded] at orderly
        exact absurd orderly missing
      | some s =>
        rw [decoded] at orderly
        simp only [Option.bind_some, decoded, TaskStream.pollStatus] at polled
        obtain ⟨updatedAt, updated, rfl⟩ := Option.map_eq_some_iff.mp polled
        simp only [updated] at orderly
        have news := orderly.resolve_left missing
        have moved := pending_seen decoded updated synced found news
        refine ⟨seen.next d.1, fun opened => ?_, ?_⟩
        · have before : closed cursor = false := by
            have still : (cursor.seen s updatedAt).completeEvent = none := by
              simpa [closed, found, EventCursor.seen] using (Bool.or_eq_false_iff.mp opened).2
            have ended : cursor.completeEvent = none := by
              by_cases final : TaskStream.isOver s = true
              · simp [EventCursor.seen, final] at still
              · simpa [EventCursor.seen, final] using still
            simp [closed, found, ended]
          exact synced_seen decoded updated (synced before) (news.2.1.imp_right fun turn => turn.2.2)
        · rw [moved, List.append_assoc]
          congr 1
          rw [remaining, remaining]
          cases before : closed cursor with
          | true =>
            have after : closed (cursor.seen s updatedAt) = true := by
              have ended : cursor.completeEvent.isSome = true := by simpa [closed, found] using before
              have still : (cursor.seen s updatedAt).completeEvent.isSome = true := by
                by_cases final : TaskStream.isOver s = true <;> simp [EventCursor.seen, final, ended]
              simp [closed, still]
            simp [after]
          | false =>
            have none_before : cursor.completeEvent = none := by simpa [closed, found] using before
            have after : closed (cursor.seen s updatedAt) = isOver d.1 := by
              rw [isOver_iff decoded]
              cases final : TaskStream.isOver s <;>
                simp [closed, EventCursor.seen, found, final, none_before]
            rw [after, eventGenerator]
            cases isOver d.1 <;> simp

/-- What stands where in a cursor. -/
structure Formed (cursor : EventCursor) : Prop where
  status : ∀ event, cursor.pendingStatus = some event → isToken event = false ∧ event.ends = false
  node : ∀ event, cursor.pendingNode = some event → isToken event = false ∧ event.ends = false
  complete : ∀ event, cursor.completeEvent = some event → isToken event = false ∧ event.ends = true

theorem Formed.seen {cursor : EventCursor} (formed : Formed cursor) (s : TaskState)
    (updatedAt : String) : Formed (cursor.seen s updatedAt) := by
  refine ⟨fun event given => ?_, fun event given => ?_, fun event given => ?_⟩
  · simp only [EventCursor.seen] at given
    split at given
    · exact formed.status event given
    · obtain rfl := Option.some.inj given
      exact ⟨rfl, rfl⟩
  · simp only [EventCursor.seen] at given
    split at given
    · exact formed.node event given
    · split at given
      · exact formed.node event given
      · obtain rfl := Option.some.inj given
        exact ⟨rfl, rfl⟩
  · simp only [EventCursor.seen] at given
    split at given
    · obtain rfl := Option.some.inj given
      exact ⟨rfl, rfl⟩
    · exact formed.complete event given

theorem Formed.polled {cursor cursor' : EventCursor} (formed : Formed cursor)
    {read : Option TaskState} (polled : TaskStream.pollStatus read cursor = some cursor') :
    Formed cursor' := by
  cases read with
  | none =>
    obtain rfl := Option.some.inj polled
    exact ⟨formed.status, formed.node, formed.complete⟩
  | some s =>
    obtain ⟨updatedAt, -, rfl⟩ := Option.map_eq_some_iff.mp polled
    exact formed.seen s updatedAt

/-- What is taken from a cursor is nothing, the last event, or the first of the pending ones. -/
inductive Taken (cursor : EventCursor) : Option SseEvent × EventCursor → Prop where
  | nothing (free : pending cursor = []) : Taken cursor (none, cursor)
  | last (event : SseEvent) (cursor' : EventCursor) (plain : isToken event = false)
      (ends : event.ends = true) (only : pending cursor = [event]) (shut : closed cursor = true) :
      Taken cursor (some event, cursor')
  | first (event : SseEvent) (cursor' : EventCursor) (plain : isToken event = false)
      (ends : event.ends = false) (rest : pending cursor = event :: pending cursor')
      (same : closed cursor' = closed cursor) (formed : Formed cursor')
      (synced : ∀ seen, Synced cursor seen → Synced cursor' seen) :
      Taken cursor (some event, cursor')

theorem take_taken {cursor : EventCursor} (formed : Formed cursor) : Taken cursor cursor.take := by
  unfold EventCursor.take
  by_cases missing : cursor.notFound = true
  · rw [if_pos missing]
    exact .last _ _ rfl rfl (by simp [pending, missing]) (by simp [closed, missing])
  · have found : cursor.notFound = false := Bool.eq_false_iff.mpr missing
    rw [if_neg missing]
    cases status : cursor.pendingStatus with
    | some event =>
      obtain ⟨plain, goes⟩ := formed.status event status
      exact .first event _ plain goes (by simp [pending, found, status]) rfl
        ⟨nofun, formed.node, formed.complete⟩ fun seen synced => ⟨synced.lastUpdated, synced.lastNode⟩
    | none =>
      cases node : cursor.pendingNode with
      | some event =>
        obtain ⟨plain, goes⟩ := formed.node event node
        exact .first event _ plain goes (by simp [pending, found, status, node]) rfl
          ⟨nofun, nofun, formed.complete⟩ fun seen synced => ⟨synced.lastUpdated, synced.lastNode⟩
      | none =>
        cases complete : cursor.completeEvent with
        | some event =>
          obtain ⟨plain, ends⟩ := formed.complete event complete
          exact .last event cursor plain ends (by simp [pending, found, status, node, complete])
            (by simp [closed, complete])
        | none => exact .nothing (by simp [pending, found, status, node, complete])

theorem sent_cons {event : SseEvent} (plain : isToken event = false) (events : List SseEvent) :
    sent (event :: events) = wire event :: sent events := by
  simp [sent, plain]

theorem polled_result (cursor : EventCursor) (state : Option State) (waited : Waited) :
    (TaskStream.nextEvent cursor).result (Round.polled state waited).answer =
      (TaskStream.pollStatus (state.bind fun d => decode d.1) cursor).map fun cursor =>
        match waited with
        | .token token => (some (.token token), cursor)
        | .nothing => cursor.take
        | .interrupted => (none, cursor) := by
  change (TaskStream.awaited (TaskStream.pollStatus _ cursor)).result _ = _
  cases TaskStream.pollStatus (state.bind fun d => decode d.1) cursor with
  | none => rfl
  | some cursor' => cases waited <;> rfl

theorem orderly_polled {cursor : EventCursor} {state : Option State} (orderly : Orderly cursor state) :
    ∃ cursor', TaskStream.pollStatus (state.bind fun d => decode d.1) cursor = some cursor' := by
  cases state with
  | none => exact ⟨_, rfl⟩
  | some d =>
    simp only [Orderly] at orderly
    cases decoded : decode d.1 with
    | none => exact ⟨_, by rw [Option.bind_some, decoded]; rfl⟩
    | some s =>
      rw [decoded] at orderly
      cases updated : s.updatedAt with
      | none => simp [updated] at orderly
      | some updatedAt =>
        exact ⟨_, by rw [Option.bind_some, decoded, TaskStream.pollStatus, updated]; rfl⟩

/-- From any point of a steady stream the gateway sends what is pending and then what the API
sends. -/
theorem stream_sent {cursor : EventCursor} {seen : Seen} {rounds : List Round} (formed : Formed cursor)
    (synced : closed cursor = false → Synced cursor seen) (steady : Steady cursor rounds) :
    sent (stream cursor rounds) =
      (pending cursor).map wire ++ remaining cursor seen (polls rounds) := by
  induction rounds generalizing cursor seen with
  | nil =>
    have free : pending cursor = [] := steady
    rw [remaining, closed_of_free free, free]
    rfl
  | cons round rounds ih =>
    obtain ⟨orderly, later⟩ := steady
    cases round with
    | token text =>
      change SseEvent.ends (.token text) = true ∨ Steady cursor rounds at later
      exact ih formed synced (later.resolve_left Bool.false_ne_true)
    | polled state waited =>
      obtain ⟨cursor', polled⟩ := orderly_polled orderly
      obtain ⟨seen', synced', moved⟩ := poll_moves orderly synced polled (polls rounds)
      have formed' := formed.polled polled
      rw [polled_result, polled] at later
      rw [polls, moved, stream, polled_result, polled]
      cases waited with
      | token text => exact ih formed' synced' (later.resolve_left Bool.false_ne_true)
      | interrupted => exact ih formed' synced' later
      | nothing =>
        have taken := take_taken formed'
        simp only [Option.map_some] at later ⊢
        generalize cursor'.take = next at taken later
        cases taken with
        | nothing free => exact ih formed' synced' later
        | last event other plain ends only shut =>
          simp only [ends, if_true]
          rw [sent_cons plain, only, remaining, if_pos shut]
          rfl
        | first event after plain ends rest same formed'' kept =>
          simp only [ends, Bool.false_eq_true, if_false, false_or] at later ⊢
          have opened : closed after = false → Synced after seen' := fun shut =>
            kept seen' (synced' (same ▸ shut))
          rw [sent_cons plain, ih formed'' opened later, rest, remaining, remaining, same]
          rfl

/-- In a steady stream the gateway sends, beside the tokens, exactly the events that the API
sends for the same polled states, in the same order. -/
theorem stream_refines {rounds : List Round} (steady : Steady {} rounds) :
    sent (stream {} rounds) = eventGenerator {} (polls rounds) := by
  have formed : Formed {} := ⟨nofun, nofun, nofun⟩
  exact stream_sent formed (fun _ => ⟨rfl, rfl⟩) steady

instance (d : Doc) (s : TaskState) : Decidable (StatusAlike d s) :=
  inferInstanceAs (Decidable (_ ∧ _ ∧ _ ∧ _))

instance (cursor : EventCursor) (d : Doc) (s : TaskState) (updatedAt : String) :
    Decidable (News cursor d s updatedAt) := inferInstanceAs (Decidable (_ ∧ _ ∧ (_ → _)))

instance instDecidableOrderly (cursor : EventCursor) : (state : Option State) →
    Decidable (Orderly cursor state)
  | none => inferInstanceAs (Decidable (_ ∨ _))
  | some d =>
    match decoded : decode d.1 with
    | none => decidable_of_iff (cursor.notFound = true) (by simp only [Orderly, decoded])
    | some s =>
      match updated : s.updatedAt with
      | none => isFalse (by simp only [Orderly, decoded, updated, not_false_eq_true])
      | some updatedAt =>
        decidable_of_iff (cursor.notFound = true ∨ News cursor d.1 s updatedAt)
          (by simp only [Orderly, decoded, updated])

instance instDecidableSteady : (cursor : EventCursor) → (rounds : List Round) →
    Decidable (Steady cursor rounds)
  | cursor, [] => inferInstanceAs (Decidable (pending cursor = []))
  | cursor, round :: rounds =>
    have first : Decidable (match round with
        | .token _ => True
        | .polled state _ => Orderly cursor state) :=
      match round with
      | .token _ => isTrue trivial
      | .polled state _ => instDecidableOrderly cursor state
    have later : Decidable (match (TaskStream.nextEvent cursor).result round.answer with
        | none => True
        | some (none, cursor) => Steady cursor rounds
        | some (some event, cursor) => event.ends = true ∨ Steady cursor rounds) :=
      match (TaskStream.nextEvent cursor).result round.answer with
      | none => isTrue trivial
      | some (none, cursor) => instDecidableSteady cursor rounds
      | some (some event, cursor) =>
        have := instDecidableSteady cursor rounds
        inferInstanceAs (Decidable (event.ends = true ∨ Steady cursor rounds))
    @instDecidableAnd _ _ first later

def State.write (d : State) (write : TaskStore.Write) (now : String) : State :=
  ⟨TaskStore.merged now d.1 write.fields, JavaTaskState.shaped_merged d.2 write now⟩

def created : State :=
  ⟨TaskStore.taskCreate "t1" "How many orders?" "shop" "" "10:00",
    JavaTaskState.shaped_taskCreate "t1" "How many orders?" "shop" "" "10:00"⟩

def running : State := created.write (.running 0) "10:01"

def generated : State := running.write (.progress "generator" 40 (some "SELECT 1") [] []) "10:02"

def executed : State := generated.write (.progress "executor" 70 (some "SELECT 1") [] []) "10:03"

def succeeded : State := executed.write (.ended "SUCCESS" none) "10:04"

/-- Every state is polled until its events are sent. -/
def unhurried : List Round :=
  [.polled (some generated) .nothing, .token "SEL", .polled (some generated) .nothing,
    .polled (some executed) .nothing, .polled (some executed) (.token "ECT"),
    .polled (some executed) .nothing, .polled (some succeeded) .nothing,
    .polled (some succeeded) .nothing]

theorem stream_refines_unhurried :
    (sent (stream {} unhurried)).map Event.name =
        ["status","node_done","status","node_done","status","complete"] ∧
      sent (stream {} unhurried) = eventGenerator {} (polls unhurried) :=
  ⟨by decide +kernel, stream_refines (by decide +kernel)⟩

/-- The next node ends before the event of the one before it is sent. -/
def hurried : List Round :=
  [.polled (some generated) .nothing, .polled (some executed) .nothing,
    .polled (some executed) .nothing, .polled (some succeeded) .nothing,
    .polled (some succeeded) .nothing]

theorem node_event_dropped :
    ⟨"node_done", .obj [("node", .str "generator")]⟩ ∈ eventGenerator {} (polls hurried) ∧
      ⟨"node_done", .obj [("node", .str "generator")]⟩ ∉ sent (stream {} hurried) ∧
      sent (stream {} hurried) ≠ eventGenerator {} (polls hurried) := by
  decide +kernel

end StreamParity
end Nl2SqlAgent

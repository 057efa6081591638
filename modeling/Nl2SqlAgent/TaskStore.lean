import Mathlib.Algebra.GroupWithZero.Nat
import Nl2SqlAgent.Lib.Json
import Nl2SqlAgent.Lib.PyText

/-! `infrastructure/task_store.py`: the documents at `task:{id}` and what the writers
put into them. Time stamps are arguments; the lifetimes of the keys are left out. -/
namespace Nl2SqlAgent

open Lib

namespace TaskStore

/-- `state.get("status", "PENDING")`. -/
def status (d : Doc) : String :=
  match d.lookup "status" with
  | some (.str s) => s
  | _ => "PENDING"

def taskCreate (taskId question dbId databaseUrl now : String) : Doc :=
  Doc.ofFields [
    ("task_id", .str taskId),
    ("status", .str "PENDING"),
    ("question", .str (Py.take 200 question)),
    ("db_id", .str dbId),
    ("database_url", .str databaseUrl),
    ("progress", .int 0),
    ("node", .null),
    ("sql", .null),
    ("exec_result", .null),
    ("token_usage", .obj []),
    ("node_timings", .obj []),
    ("retry_count", .int 0),
    ("error", .null),
    ("created_at", .str now),
    ("updated_at", .str now)]

/-- The document that `task_update` writes over the one it read. -/
def merged (now : String) (d : Doc) (fields : List (String × Json)) : Doc :=
  d.update (fields ++ [("updated_at", .str now)])

/-- The table of `_valid_transition`. -/
def allowed : String → List String
  | "PENDING" => ["RUNNING","CANCELLED"]
  | "RUNNING" => ["SUCCESS","FAILED","TIMEOUT","CANCELLED"]
  | "FAILED" => ["PENDING"]
  | "TIMEOUT" => ["PENDING"]
  | _ => []

def validTransition (current : Option Doc) (next : String) : Bool :=
  match current with
  | none => next = "PENDING"
  | some d => next ∈ allowed (status d)

def text : Option String → Json
  | none => .null
  | some s => .str s

/-- The writes of the worker: the transitions of its handlers, the progress updates
between nodes, the retry's update and the two that end a graph run. -/
inductive Write where
  | running (retryCount : Fin 4)
  | ended (status : String) (error : Option String)
  | progress (node : String) (percent : Fin 101) (sql : Option String)
      (tokenUsage nodeTimings : List (String × Json))
  | retried (retryCount : Fin 4) (error : String)
  | graphDone (sql : Option String) (execResult : Json)
      (tokenUsage nodeTimings : List (String × Json)) (schemaText notesText fewshotText : String)
      (payload : List (String × Json))
  | feedbackStarted
  | feedbackDone (sql : Option String) (execResult : Json)
      (tokenUsage nodeTimings : List (String × Json)) (conversationTurns : List Json)

def Write.fields : Write → List (String × Json)
  | .running retryCount =>
    [("status", .str "RUNNING"), ("retry_count", .int retryCount)]
  | .ended status error =>
    ("status", .str status) :: (error.map fun e => ("error", Json.str e)).toList
  | .progress node percent sql tokenUsage nodeTimings =>
    [("node", .str node), ("progress", .int percent), ("sql", text sql),
      ("token_usage", .obj tokenUsage), ("node_timings", .obj nodeTimings)]
  | .retried retryCount error => [("retry_count", .int retryCount), ("error", .str error)]
  | .graphDone sql execResult tokenUsage nodeTimings schemaText notesText fewshotText payload =>
    [("sql", text sql), ("exec_result", execResult), ("token_usage", .obj tokenUsage),
      ("node_timings", .obj nodeTimings), ("_schema_text", .str schemaText),
      ("_notes_text", .str notesText), ("_fewshot_text", .str fewshotText),
      ("_original_payload", .obj payload)]
  | .feedbackStarted => [("status", .str "RUNNING"), ("node", .null), ("progress", .int 0)]
  | .feedbackDone sql execResult tokenUsage nodeTimings conversationTurns =>
    [("sql", text sql), ("exec_result", execResult), ("token_usage", .obj tokenUsage),
      ("node_timings", .obj nodeTimings), ("conversation_turns", .arr conversationTurns),
      ("user_feedback", .str "")]

def Write.status : Write → Option String
  | .running _ => some "RUNNING"
  | .ended status _ => some status
  | .feedbackStarted => some "RUNNING"
  | _ => none

/-- A write without a status keeps the one of the document it was merged into. -/
theorem status_merged (now : String) (d : Doc) (write : Write) :
    status (merged now d write.fields) = write.status.getD (status d) := by
  cases write with
  | ended next error => cases error <;> simp [status, merged, Write.fields, Write.status]
  | _ => simp [status, merged, Write.fields, Write.status]

/-- Written for the next feedback round, and by it. -/
def contextKeys : List String :=
  ["_schema_text","_notes_text","_fewshot_text","_original_payload","user_feedback"]

end TaskStore
end Nl2SqlAgent

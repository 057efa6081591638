import Nl2SqlAgent.IdempotentReplay
import Nl2SqlAgent.JavaWriteBack

/-! The texts that the gateway and the API both derive from a question: what is hashed
for the idempotency key and what a new task stores. The gateway cuts after UTF-16 units,
the API after characters. -/
namespace Nl2SqlAgent

open Lib

namespace StringParity

/-- `sha256(f"{req.idempotency_key}:{req.question[:80]}")[:32]`, as `task_submit` computes it. -/
def apiKey (digest : String → String) (key question : String) : String :=
  digest (IdempotentReplay.text (key, Py.take 80 question))

/-- What `TaskIdempotency.key` hashes. -/
def gatewayText (key question : String) : String :=
  IdempotentReplay.text (key, .ofList (JavaTaskState.utf16Prefix 80 question.toList))

/-- The first `n` characters of the question have no more than `n` UTF-16 units. -/
def Fits (n : Nat) (question : String) : Prop := JavaTaskState.width (question.toList.take n) ≤ n

instance : Decidable (Fits n question) := inferInstanceAs (Decidable (_ ≤ _))

theorem cut_eq_iff (n : Nat) (question : String) :
    String.ofList (JavaTaskState.utf16Prefix n question.toList) = Py.take n question ↔
      Fits n question := by
  rw [Py.take, String.ofList_inj]
  exact JavaTaskState.utf16Prefix_eq_take (Nat.le_refl n)

theorem text_eq_iff (key question : String) :
    gatewayText key question = IdempotentReplay.text (key, Py.take 80 question) ↔
      Fits 80 question := by
  rw [← cut_eq_iff]
  constructor
  · intro same
    have chars := congrArg String.toList same
    simp only [gatewayText, IdempotentReplay.text, String.toList_append] at chars
    exact String.toList_inj.mp (List.append_cancel_left chars)
  · intro same
    rw [gatewayText, same]

/-- The two keys agree when the texts do, and only then unless the hash collides there. -/
theorem key_eq_iff {digest : String → String} {key question : String}
    (collisionFree : digest (gatewayText key question) =
        digest (IdempotentReplay.text (key, Py.take 80 question)) →
      gatewayText key question = IdempotentReplay.text (key, Py.take 80 question)) :
    GatewaySubmit.idempotencyKey digest key question = apiKey digest key question ↔
      Fits 80 question := by
  rw [← text_eq_iff key]
  exact ⟨collisionFree, congrArg digest⟩

theorem gateway_question (taskId question dbId databaseUrl now : String) :
    (JavaTaskState.encode (JavaTaskState.create taskId question dbId databaseUrl now)).lookup
      "question" = some (.str (JavaTaskState.storedQuestion question)) := by
  apply JavaTaskState.encode_lookup
  simp [JavaTaskState.baseFields, JavaTaskState.create, TaskStore.text]

theorem api_question (taskId question dbId databaseUrl now : String) :
    (TaskStore.taskCreate taskId question dbId databaseUrl now).lookup "question" =
      some (.str (Py.take 200 question)) :=
  Doc.lookup_update_mem _ _ _ _ (by simp) (by simp)

theorem question_eq_iff (taskId question dbId databaseUrl now now' : String) :
    (JavaTaskState.encode (JavaTaskState.create taskId question dbId databaseUrl now)).lookup
        "question" =
      (TaskStore.taskCreate taskId question dbId databaseUrl now').lookup "question" ↔
      Fits 200 question := by
  rw [gateway_question, api_question, Option.some.injEq, Json.str.injEq]
  exact cut_eq_iff 200 question

/-- The keys agree and so do the stored questions exactly when no character outside the
basic plane moves one of the two cuts. -/
theorem strings_agree_iff (digest : String → String)
    (key question taskId dbId databaseUrl now now' : String)
    (collisionFree : digest (gatewayText key question) =
        digest (IdempotentReplay.text (key, Py.take 80 question)) →
      gatewayText key question = IdempotentReplay.text (key, Py.take 80 question)) :
    (GatewaySubmit.idempotencyKey digest key question = apiKey digest key question ∧
      (JavaTaskState.encode (JavaTaskState.create taskId question dbId databaseUrl now)).lookup
          "question" =
        (TaskStore.taskCreate taskId question dbId databaseUrl now').lookup "question") ↔
      Fits 80 question ∧ Fits 200 question :=
  and_congr (key_eq_iff collisionFree) (question_eq_iff taskId question dbId databaseUrl now now')

/-- The pair of units of the 80th character lies across the first cut, and the 200th
character is the 201st unit. -/
def cutPairChars : List Char :=
  List.replicate 79 'a' ++ Char.ofNat 0x1F600 :: List.replicate 120 'b'

def cutPair : String := .ofList cutPairChars

theorem cutPair_moved : ¬ Fits 80 cutPair ∧ ¬ Fits 200 cutPair := by
  have chars : cutPair.toList = cutPairChars := String.toList_ofList
  rw [Fits, Fits, chars]
  decide +kernel

/-- The hashes of `k:` and the question's first 80 characters, and of what the gateway makes
of them. -/
def hashed : String → String :=
  Equiv.swap (IdempotentReplay.text ("k", Py.take 80 cutPair)) "7c32786bc22799ffba5f514d339d268b" ∘
    Equiv.swap (gatewayText "k" cutPair) "10c5e1dbd18bd95b6674c6be65a9f452"

theorem strings_differ :
    GatewaySubmit.idempotencyKey hashed "k" cutPair ≠ apiKey hashed "k" cutPair ∧
      (JavaTaskState.encode (JavaTaskState.create "t" cutPair "" "" "now")).lookup "question" ≠
        (TaskStore.taskCreate "t" cutPair "" "" "now").lookup "question" := by
  constructor
  · intro same
    have texts := (Equiv.injective _).comp (Equiv.injective _) same
    exact cutPair_moved.1 ((text_eq_iff "k" cutPair).mp texts)
  · intro same
    exact cutPair_moved.2 ((question_eq_iff "t" cutPair "" "" "now" "now").mp same)

theorem strings_agree_iff_cut_pair :
    ¬ (GatewaySubmit.idempotencyKey hashed "k" cutPair = apiKey hashed "k" cutPair ∧
      (JavaTaskState.encode (JavaTaskState.create "t" cutPair "" "" "now")).lookup "question" =
        (TaskStore.taskCreate "t" cutPair "" "" "now").lookup "question") := by
  have injective : Function.Injective hashed := (Equiv.injective _).comp (Equiv.injective _)
  have agreement := strings_agree_iff hashed "k" cutPair "t" "" "" "now" "now" (@injective _ _)
  intro same
  exact cutPair_moved.1 (agreement.mp same).1

end StringParity
end Nl2SqlAgent

import Fino.Lib.SparseArray

/-!
# The persisted state of a workflow run

The data model of `js/workflow.ts`. A JavaScript `unknown` is a value of an arbitrary type `V`, with
`none` for `undefined`; absent and `undefined` properties are read alike. Times are exact rational
numbers of milliseconds. A store hands out clones, so a snapshot is a value.
-/

namespace Fino.Workflow

open Lib

/-- A point in time or a length of time, in milliseconds. -/
abbrev Time := ℚ

inductive WorkflowStatus
  | running
  | waiting
  | done
  | error
  | cancelled
deriving DecidableEq, Repr

/-- A thrown error: the fields that the runtime reads. `name` selects the branch of `#drive`'s
handler and of `runWithRetry`'s. -/
structure JsError where
  name : String
  message : String
  stack : Option String
deriving DecidableEq, Repr

/-- `new Error(message)`, with no stack recorded. -/
def JsError.new (message : String) : JsError := ⟨"Error", message, none⟩

/-- `new WaitSignal()`, which unwinds a body that pauses. -/
def JsError.waitSignal : JsError := ⟨"WaitSignal", "Workflow is waiting", none⟩

/-- `WorkflowWait`: what a paused run waits for, and the call index that created the wait. -/
inductive WorkflowWait
  | timer (id : String) (dueAt : Time) (stepIndex : ℕ)
  | signal (id name : String) (stepIndex : ℕ) (timeoutAt : Option Time)
deriving DecidableEq, Repr

/-- The completion marker of a step record; the source has no other value. -/
inductive StepStatus
  | done
deriving DecidableEq, Repr

/-- `WorkflowStepState`: one completed checkpoint. -/
structure WorkflowStepState (V : Type) where
  id : String
  status : StepStatus
  result : Option V
deriving DecidableEq, Repr

/-- `WorkflowSignal`: one delivered signal. -/
structure WorkflowSignal (V : Type) where
  name : String
  payload : Option V
  receivedAt : Time
deriving DecidableEq, Repr

/-- The serialized failure of an `error` run. -/
structure WorkflowFailure where
  message : String
  stack : Option String
deriving DecidableEq, Repr

/-- `Record<string, unknown>`: the durable bag, `none` at a key that is absent. -/
abbrev Bag (V : Type) := String → Option (Option V)

/-- `WorkflowState`: the record persisted for a run. -/
structure WorkflowState (V : Type) where
  runId : String
  workflowId : String
  status : WorkflowStatus
  cursor : ℕ
  input : Option V
  steps : SparseArray (WorkflowStepState V)
  state : Bag V
  signals : List (WorkflowSignal V)
  createdAt : Time
  updatedAt : Time
  key : Option String
  waitingOn : Option WorkflowWait
  result : Option V
  error : Option WorkflowFailure

variable {V : Type}

/-- The loop condition `steps[cursor]?.status === 'done'`, on a record that is present. -/
def WorkflowStepState.isDone (step : WorkflowStepState V) : Bool := step.status == .done

@[simp]
lemma WorkflowStepState.isDone_eq_true (step : WorkflowStepState V) : step.isDone := by
  cases h : step.status
  simp [isDone, h]

/-- Whether a run can no longer be driven: the statuses that `resume()` refuses to drive. -/
def WorkflowStatus.Final (status : WorkflowStatus) : Prop := status = .done ∨ status = .cancelled

instance (status : WorkflowStatus) : Decidable status.Final :=
  inferInstanceAs (Decidable (_ ∨ _))

/-- One write to the durable bag: `ctx.state.set(key, value)` or `ctx.state.clear(key)`. -/
inductive BagWrite (V : Type)
  | set (key : String) (value : Option V)
  | clear (key : String)

def BagWrite.apply (bag : Bag V) : BagWrite V → Bag V
  | .set key value => fun k => if k = key then some value else bag k
  | .clear key => fun k => if k = key then none else bag k

/-- The bag after a sequence of writes, the first one first. -/
def applyWrites (bag : Bag V) (writes : List (BagWrite V)) : Bag V :=
  writes.foldl BagWrite.apply bag

/-! ## Durations -/

/-- The three forms in which `ctx.sleep` and the `timeout` option take a duration. -/
inductive Duration
  | millis (amount : Time)
  | text (value : String)
  | date (time : Time)
deriving DecidableEq

/-- The characters that `String.prototype.trim` removes. -/
def isJsSpace (c : Char) : Bool :=
  c.toNat ∈ [0x09, 0x0a, 0x0b, 0x0c, 0x0d, 0x20, 0xa0, 0x1680, 0x2028, 0x2029, 0x202f, 0x205f,
    0x3000, 0xfeff] || (0x2000 ≤ c.toNat && c.toNat ≤ 0x200a)

/-- `String.prototype.trim`. -/
def jsTrim (cs : List Char) : List Char :=
  ((cs.dropWhile isJsSpace).reverse.dropWhile isJsSpace).reverse

/-- The regular expression's `\d`. -/
def isDigit (c : Char) : Bool := '0' ≤ c && c ≤ '9'

def digitsValue (cs : List Char) : ℕ := cs.foldl (fun n c => 10 * n + (c.toNat - '0'.toNat)) 0

def unitScale (unit : List Char) : Option Time :=
  if unit = ['m', 's'] then some 1
  else if unit = ['s'] then some 1000
  else if unit = ['m'] then some 60000
  else if unit = ['h'] then some 3600000
  else if unit = ['d'] then some 86400000
  else none

/-- A duration string that matches `^(\d+(?:\.\d+)?)(ms|s|m|h|d)$` once trimmed, in milliseconds. -/
def parseDuration (value : String) : Option Time :=
  let cs := jsTrim value.toList
  let whole := cs.takeWhile isDigit
  let rest := cs.dropWhile isDigit
  if whole = [] then none
  else
    match rest with
    | '.' :: tail =>
      let frac := tail.takeWhile isDigit
      if frac = [] then none
      else
        (unitScale (tail.dropWhile isDigit)).map fun scale =>
          (digitsValue whole + digitsValue frac / 10 ^ frac.length) * scale
    | unit => (unitScale unit).map fun scale => digitsValue whole * scale

/-- `toDueAt`: the absolute time of a duration counted from `now`. -/
def toDueAt (now : Time) : Duration → Except JsError Time
  | .date time => .ok time
  | .millis amount => .ok (now + amount)
  | .text value =>
    match parseDuration value with
    | none => .error (.new ("Invalid workflow duration \"" ++ value ++ "\""))
    | some amount => .ok (now + amount)

example : parseDuration " 1.5s " = some 1500 := by decide +kernel

end Fino.Workflow

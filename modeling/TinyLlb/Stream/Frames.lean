import Mathlib.Data.List.DropRight
import TinyLlb.Library.Json
import TinyLlb.Stream.Sse

/-! # What the gateway reads from a frame

Frames and error bodies are classified by the JSON they carry. The JSON reader
is not part of the gateway: `fromSlice` stands for it, and anything it rejects is
skipped.
-/

namespace TinyLlb

structure FrameClassification where
  hasContent : Bool
  hasToolCalls : Bool
  /-- `choices[0].finish_reason` of the first line that has one. -/
  finishReason : Option String
  isDone : Bool
  hasUsage : Bool
  isError : Bool
  deriving DecidableEq

namespace FrameClassification

def none : FrameClassification :=
  { hasContent := false, hasToolCalls := false, finishReason := .none, isDone := false,
    hasUsage := false, isError := false }

/-- The frame carries content or tool calls. -/
def substantive (cls : FrameClassification) : Bool := cls.hasContent || cls.hasToolCalls

end FrameClassification

/-- Strip a leading `data:` with at most one space; other lines are empty. -/
def stripDataPrefix (line : Bytes) : Bytes :=
  if ascii "data: " <+: line then line.drop 6
  else if ascii "data:" <+: line then line.drop 5
  else []

def isAsciiWs (b : UInt8) : Bool := b == 32 || b == 9 || b == 13

def trimAscii (b : Bytes) : Bytes := (b.dropWhile isAsciiWs).rdropWhile isAsciiWs

section

variable (fromSlice : Bytes → Option Json)

/-- `delta.content` is a non-empty string, array or object. -/
def deltaHasContent (delta : Json) : Bool :=
  (delta.get "content").any fun content =>
    content.isFilledString || content.isFilledArray || content.isFilledObject

def deltaHasToolCalls (delta : Json) : Bool := (delta.get "tool_calls").any Json.isFilledArray

/-- The first entry of `choices`. -/
def firstChoice (value : Json) : Option Json := ((value.get "choices").bind Json.asArray).bind List.head?

/-- What the JSON of one line adds to the classification. -/
def classifyValue (cls : FrameClassification) (value : Json) : FrameClassification :=
  let delta := (firstChoice value).bind (Json.get "delta")
  { cls with
    isError := cls.isError || (value.get "error").isSome
    hasContent := cls.hasContent || delta.any deltaHasContent
    hasToolCalls := cls.hasToolCalls || delta.any deltaHasToolCalls
    finishReason := cls.finishReason.or
      ((firstChoice value).bind fun first => (first.get "finish_reason").bind Json.asStr)
    hasUsage := cls.hasUsage || (value.get "usage").any Json.isFilledObject }

def classifyLine (cls : FrameClassification) (line : Bytes) : FrameClassification :=
  let trimmed := trimAscii (stripDataPrefix line)
  if trimmed = ascii "[DONE]" then { cls with isDone := true }
  else
    match fromSlice trimmed with
    | some value => classifyValue cls value
    | none => cls

/-- Best-effort classification of one event. -/
def classifyFrame (frame : Bytes) : FrameClassification :=
  (frame.splitOn lf).foldl (classifyLine fromSlice) .none

/-- As `strip_data_prefix`, but a line without the prefix is kept. -/
def stripDataPrefixOr (line : Bytes) : Bytes :=
  if ascii "data: " <+: line then line.drop 6
  else if ascii "data:" <+: line then line.drop 5
  else line

/-- `usage.completion_tokens`, else `usage.total_tokens`, else 0. -/
def usageTokens (value : Json) : Int :=
  ((value.get "usage").bind fun usage =>
    ((usage.get "completion_tokens").bind Json.asI64).or
      ((usage.get "total_tokens").bind Json.asI64)).getD 0

/-- The first positive count of the lines, else 0. -/
def completionTokensFromLines : List Bytes → Int
  | [] => 0
  | line :: rest =>
      match fromSlice (trimAscii (stripDataPrefixOr line)) with
      | some value =>
          if usageTokens value > 0 then usageTokens value else completionTokensFromLines rest
      | none => completionTokensFromLines rest

def completionTokensFromFrame (frame : Bytes) : Int :=
  completionTokensFromLines fromSlice (frame.splitOn lf)

inductive LlamacppErrorClass where
  | notLlamacpp
  | permanent
  | transient
  deriving DecidableEq

/-- The class of a JSON error value. -/
def classifyErrorValue (value : Json) : LlamacppErrorClass :=
  match (value.get "error").bind Json.asObject with
  | none => .notLlamacpp
  | some members =>
      let error := Json.object members
      if (error.get "type").bind Json.asStr ≠ some "exceed_context_size_error" then .notLlamacpp
      else
        match (error.get "n_prompt_tokens").bind Json.asI64, (error.get "n_ctx").bind Json.asI64 with
        | some promptTokens, some ctx => if promptTokens < ctx then .transient else .permanent
        | _, _ => .notLlamacpp

def classifyLlamacppError (body : Bytes) : LlamacppErrorClass :=
  match fromSlice body with
  | some value => classifyErrorValue value
  | none => .notLlamacpp

end

theorem completionTokensFromFrame_nonneg (fromSlice : Bytes → Option Json) (frame : Bytes) :
    0 ≤ completionTokensFromFrame fromSlice frame := by
  unfold completionTokensFromFrame
  generalize frame.splitOn lf = lines
  induction lines with
  | nil => exact Int.le_refl 0
  | cons line rest ih =>
      simp only [completionTokensFromLines]
      split
      · split
        · exact Int.le_of_lt ‹_›
        · exact ih
      · exact ih

end TinyLlb

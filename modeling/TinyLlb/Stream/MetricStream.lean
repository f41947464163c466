import TinyLlb.Gateway.Lifecycle
import TinyLlb.Library.Needle
import TinyLlb.Stream.RetryStream

/-! # The plain stream

`MetricStream` hands the chunks of the backend on as they come. Beside that a
`TokenAccumulator` looks for the key `"completion_tokens"` in the raw bytes and
counts the number behind it.
-/

namespace TinyLlb

/-- What `trim` takes for white space, in UTF-8. -/
def whiteSpaces : List Bytes :=
  [[9], [10], [11], [12], [13], [32], [0xC2, 0x85], [0xC2, 0xA0], [0xE1, 0x9A, 0x80],
    [0xE2, 0x80, 0x80], [0xE2, 0x80, 0x81], [0xE2, 0x80, 0x82], [0xE2, 0x80, 0x83],
    [0xE2, 0x80, 0x84], [0xE2, 0x80, 0x85], [0xE2, 0x80, 0x86], [0xE2, 0x80, 0x87],
    [0xE2, 0x80, 0x88], [0xE2, 0x80, 0x89], [0xE2, 0x80, 0x8A], [0xE2, 0x80, 0xA8],
    [0xE2, 0x80, 0xA9], [0xE2, 0x80, 0xAF], [0xE2, 0x81, 0x9F], [0xE3, 0x80, 0x80]]

/-- Drop the words at the front, one after the other. -/
def stripAll (words : List Bytes) : Nat → Bytes → Bytes
  | 0, b => b
  | fuel + 1, b =>
      match words.find? (·.isPrefixOf b) with
      | some word => stripAll words fuel (b.drop word.length)
      | none => b

def trimStart (b : Bytes) : Bytes := stripAll whiteSpaces b.length b

def trimEnd (b : Bytes) : Bytes :=
  (stripAll (whiteSpaces.map List.reverse) b.length b.reverse).reverse

/-- `trim` of a text in UTF-8. -/
def trim (b : Bytes) : Bytes := trimEnd (trimStart b)

def isDigit (b : UInt8) : Bool := decide (48 ≤ b.toNat) && decide (b.toNat ≤ 57)

def natOfDigits (digits : Bytes) : Nat := digits.foldl (fun n b => 10 * n + (b.toNat - 48)) 0

def parseNat (b : Bytes) : Option Nat :=
  if b ≠ [] ∧ b.all isDigit = true then some (natOfDigits b) else none

/-- `parse::<i64>`: a sign is allowed, and the range is checked. -/
def parseI64 (b : Bytes) : Option Int :=
  let value : Option Int :=
    match b with
    | 43 :: digits => (parseNat digits).map fun n => (n : Int)
    | 45 :: digits => (parseNat digits).map fun n => -(n : Int)
    | digits => (parseNat digits).map fun n => (n : Int)
  value.filter fun n => decide (InI64 n)

structure TokenAccumulator where
  buffer : Bytes

namespace TokenAccumulator

/-- `"completion_tokens"`, with its quotes. -/
def key : Bytes := ascii "\"completion_tokens\""

def isBlank (b : UInt8) : Bool := b == 32 || b == 9

/-- A comma, a closing brace, a space or the end of a line. -/
def endsValue (b : UInt8) : Bool := b == 44 || b == 125 || b == 32 || b == 10 || b == 13

/-- The number behind a key, as far as the buffer has it. Bytes that are no UTF-8
    are no number either. -/
def tokensBehind (rest : Bytes) : Option Int :=
  match rest.dropWhile (· != 58) with
  | [] => none
  | _ :: afterColon =>
      match afterColon.dropWhile isBlank with
      | [] => none
      | value => parseI64 (trim (value.takeWhile fun b => !endsValue b))

/-- The loop of `extract_tokens`, with the tokens found so far. Every round drains
    the buffer up to the end of a key, whatever stands behind it. -/
def extractTokens (arith : I64Arith) : Nat → Bytes → Int → Int × Bytes
  | 0, b, found => (found, b)
  | fuel + 1, b, found =>
      match Needle.find key b with
      | none => (found, b)
      | some pos =>
          let rest := b.drop (pos + 19)
          let found :=
            match tokensBehind rest with
            | some tokens => arith.store (found + tokens)
            | none => found
          extractTokens arith fuel rest found

def new : TokenAccumulator := ⟨[]⟩

def feed (arith : I64Arith) (acc : TokenAccumulator) (chunk : Bytes) : Int × TokenAccumulator :=
  let buffer := acc.buffer ++ chunk
  let result := extractTokens arith buffer.length buffer 0
  (result.1, ⟨result.2⟩)

end TokenAccumulator

inductive MetricStreamError where
  /-- "request timeout while streaming" -/
  | requestTimeout
  | backend (error : NetworkError)

structure MetricStream where
  accumulator : TokenAccumulator
  tokensCounter : Int
  lifecycleGuard : LifecycleGuard
  deadline : Option Nat

namespace MetricStream

def new (guard : LifecycleGuard) (deadline : Option Nat) : MetricStream :=
  ⟨.new, 0, guard, deadline⟩

/-- Count the tokens of a chunk. -/
def count (arith : I64Arith) (s : MetricStream) (chunk : Bytes) : MetricStream :=
  let tokens := (s.accumulator.feed arith chunk).1
  let s := { s with accumulator := (s.accumulator.feed arith chunk).2 }
  if tokens > 0 then
    { s with
      tokensCounter := s.tokensCounter + tokens
      lifecycleGuard := s.lifecycleGuard.addDeliveredTokens arith tokens }
  else s

/-- One poll at the time `now`, where the backend has something ready. -/
def pollNext (arith : I64Arith) (s : MetricStream) (now : Nat) (item : ReadItem) :
    MetricStream × Option (Except MetricStreamError Bytes) :=
  if s.deadline.any (· ≤ now) then (s, some (.error .requestTimeout))
  else
    match item with
    | .chunk bytes => (s.count arith bytes, some (.ok bytes))
    | .failed error => (s, some (.error (.backend error)))
    | .eof => ({ s with lifecycleGuard := s.lifecycleGuard.markCompleted }, none)

/-- Poll until the body ends, with what is sent of it. -/
def pollAll (arith : I64Arith) : MetricStream → List (Nat × ReadItem) → MetricStream × Bytes
  | s, [] => (s, [])
  | s, (now, item) :: rest =>
      match s.pollNext arith now item with
      | (s, some (.ok bytes)) => ((pollAll arith s rest).1, bytes ++ (pollAll arith s rest).2)
      | (s, _) => (s, [])

/-- The polls find the chunks and the end of the body, each before the deadline. -/
structure Polls (s : MetricStream) (chunks : List Bytes) (polls : List (Nat × ReadItem)) : Prop where
  items : polls.map Prod.snd = chunks.map .chunk ++ [.eof]
  inTime : ∀ poll ∈ polls, s.deadline.any (· ≤ poll.1) = false

@[simp] theorem count_deadline (arith : I64Arith) (s : MetricStream) (chunk : Bytes) :
    (s.count arith chunk).deadline = s.deadline := by
  unfold count
  dsimp only
  split <;> rfl

theorem pollAll_eq (arith : I64Arith) {s : MetricStream} {chunks : List Bytes}
    {polls : List (Nat × ReadItem)} (polled : s.Polls chunks polls) :
    s.pollAll arith polls =
      ({ chunks.foldl (count arith) s with
          lifecycleGuard := (chunks.foldl (count arith) s).lifecycleGuard.markCompleted },
        chunks.flatten) := by
  induction chunks generalizing s polls with
  | nil =>
      match polls, polled with
      | [(now, item)], ⟨items, inTime⟩ =>
          obtain rfl : item = .eof := by simpa using items
          have early := inTime (now, .eof) (by simp)
          simp [pollAll, pollNext, early]
  | cons chunk chunks ih =>
      match polls, polled with
      | (now, item) :: rest, ⟨items, inTime⟩ =>
          obtain ⟨rfl, later⟩ :
              item = .chunk chunk ∧ rest.map Prod.snd = chunks.map .chunk ++ [.eof] := by
            simpa using items
          have early := inTime (now, .chunk chunk) (by simp)
          have after : (s.count arith chunk).Polls chunks rest := by
            refine ⟨later, ?_⟩
            intro poll member
            rw [count_deadline]
            exact inTime poll (List.mem_cons_of_mem _ member)
          simp [pollAll, pollNext, early, ih after]

end MetricStream

end TinyLlb

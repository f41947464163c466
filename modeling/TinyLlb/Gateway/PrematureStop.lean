import Mathlib.Tactic.Linarith
import TinyLlb.Stream.RetryStream

/-! # Degenerate turns

A turn that ends with nothing said is sent again at a higher temperature. Whole
bodies and streams are told degenerate by two rules written apart: they differ on
values that one of them takes for content and the other one does not. The
temperature of the retry starts from that of the request if it is a float, and from
the default otherwise.
-/

namespace TinyLlb

/-- Anything but null and the empty string counts as content. -/
def messageHasContent (message : Json) : Bool :=
  match message.get "content" with
  | none | some .null => false
  | some (.string s) => s != ""
  | some _ => true

/-- Anything but null and the empty array counts as a tool call. -/
def messageHasToolCalls (message : Json) : Bool :=
  match message.get "tool_calls" with
  | none | some .null => false
  | some (.array items) => !items.isEmpty
  | some _ => true

def isDegenerateReason (finishReason : String) : Bool :=
  finishReason == "stop" || finishReason == "length"

def isPrematureStop (body : Json) : Bool :=
  match body.get "choices" with
  | some (.array (.object first :: _)) =>
      match (Json.object first).get "finish_reason" with
      | some (.string reason) =>
          if isDegenerateReason reason then
            match (Json.object first).get "message" with
            | some (.object members) =>
                !messageHasContent (.object members) && !messageHasToolCalls (.object members)
            | _ => false
          else false
      | _ => false
  | _ => false

/-- A completion or an event with one choice, whose text is under `part`. -/
def singleChoice (part finishReason : String) (members : List (String × Json)) : Json :=
  .object [("choices", .array [.object
    [("finish_reason", .string finishReason), (part, .object members)]])]

/-- The rule of the streaming path, for a stream of one event. -/
def streamsPrematureStop (cfg : RetryConfig) (guard : LifecycleGuard) (frame : Bytes) : Bool :=
  (cfg.classify frame).finishReason.any
    ((RetryTask.start guard).note (cfg.classify frame)).degenerate

/-- Content for the one rule and not for the other. -/
def isDoubtfulContent : Json → Bool
  | .bool _ | .number _ => true
  | .array items => items.isEmpty
  | .object members => members.isEmpty
  | .null | .string _ => false

/-- A tool call for the one rule and not for the other. -/
def isDoubtfulToolCalls : Json → Bool
  | .bool _ | .number _ | .string _ | .object _ => true
  | .null | .array _ => false

theorem messageHasContent_eq (message : Json) :
    messageHasContent message =
      (deltaHasContent message || (message.get "content").any isDoubtfulContent) := by
  unfold messageHasContent deltaHasContent
  cases message.get "content" with
  | none => rfl
  | some content =>
      cases content with
      | null | bool | number => rfl
      | string s => simp [Json.isFilledString, Json.isFilledArray, Json.isFilledObject,
          isDoubtfulContent]
      | array items =>
          cases items <;> simp [Json.isFilledString, Json.isFilledArray, Json.isFilledObject,
            isDoubtfulContent]
      | object members =>
          cases members <;> simp [Json.isFilledString, Json.isFilledArray, Json.isFilledObject,
            isDoubtfulContent]

theorem messageHasToolCalls_eq (message : Json) :
    messageHasToolCalls message =
      (deltaHasToolCalls message || (message.get "tool_calls").any isDoubtfulToolCalls) := by
  unfold messageHasToolCalls deltaHasToolCalls
  cases message.get "tool_calls" with
  | none => rfl
  | some calls =>
      cases calls with
      | null | bool | number | string | object => rfl
      | array items => simp [Json.isFilledArray, isDoubtfulToolCalls]

theorem isPrematureStop_singleChoice (reason : String) (members : List (String × Json)) :
    isPrematureStop (singleChoice "message" reason members) =
      (isDegenerateReason reason &&
        (!messageHasContent (.object members) && !messageHasToolCalls (.object members))) := by
  have found : (singleChoice "message" reason members).get "choices" = some (.array [.object
      [("finish_reason", .string reason), ("message", .object members)]]) := rfl
  have reasonHere : (Json.object [("finish_reason", .string reason),
      ("message", .object members)]).get "finish_reason" = some (.string reason) := rfl
  have messageHere : (Json.object [("finish_reason", .string reason),
      ("message", .object members)]).get "message" = some (.object members) := rfl
  simp only [isPrematureStop, found, reasonHere, messageHere]
  cases isDegenerateReason reason <;> simp

theorem splitOn_line {line : Bytes} (oneLine : lf ∉ line) (n : Nat) :
    (line ++ List.replicate n lf).splitOn lf = line :: List.replicate n [] := by
  induction n generalizing line with
  | zero =>
      rw [List.replicate_zero, List.append_nil, List.splitOn_eq_singleton oneLine]
      rfl
  | succ n ih =>
      have rest : ([] ++ List.replicate n lf).splitOn lf = [] :: List.replicate n [] := ih (by simp)
      rw [List.replicate_succ, List.splitOn_append_cons_self_of_not_mem oneLine, ← List.nil_append
        (List.replicate n lf), rest, List.replicate_succ]

theorem trimAscii_object (inner : Bytes) :
    trimAscii (123 :: (inner ++ [125])) = 123 :: (inner ++ [125]) := by
  have start : isAsciiWs 123 = false := rfl
  have stop : isAsciiWs 125 = false := rfl
  unfold trimAscii
  rw [List.dropWhile_cons_of_neg (by simp [start]), ← List.cons_append,
    List.rdropWhile_concat_neg _ _ _ (by simp [stop])]

theorem classifyLine_blank {fromSlice : Bytes → Option Json} (empty : fromSlice [] = none)
    (cls : FrameClassification) (n : Nat) :
    (List.replicate n []).foldl (classifyLine fromSlice) cls = cls := by
  have blank : classifyLine fromSlice cls [] = cls := by
    have text : trimAscii (stripDataPrefix []) = [] := rfl
    simp [classifyLine, text, empty, ascii]
  induction n with
  | zero => rfl
  | succ n ih => rw [List.replicate_succ, List.foldl_cons, blank, ih]

theorem streamsPrematureStop_singleChoice {cfg : RetryConfig} {guard : LifecycleGuard} {inner : Bytes}
    {reason : String} {members : List (String × Json)} (oneLine : lf ∉ inner)
    (read : cfg.fromSlice (123 :: (inner ++ [125])) = some (singleChoice "delta" reason members))
    (empty : cfg.fromSlice [] = none) (n : Nat) :
    streamsPrematureStop cfg guard (ascii "data: " ++ (123 :: (inner ++ [125])) ++ List.replicate n lf) =
      (isDegenerateReason reason &&
        (!deltaHasContent (.object members) && !deltaHasToolCalls (.object members))) := by
  have text : stripDataPrefix (ascii "data: " ++ 123 :: (inner ++ [125])) = 123 :: (inner ++ [125]) := by
    simp [stripDataPrefix]
    rfl
  have unmarked : 123 :: (inner ++ [125]) ≠ ascii "[DONE]" := by
    intro same
    cases congrArg List.head? same
  have lines : lf ∉ ascii "data: " ++ 123 :: (inner ++ [125]) := by
    simp only [List.mem_append, List.mem_cons, List.not_mem_nil, or_false, not_or]
    exact ⟨by decide, by decide, oneLine, by decide⟩
  have cls : cfg.classify (ascii "data: " ++ (123 :: (inner ++ [125])) ++ List.replicate n lf) =
      classifyValue .none (singleChoice "delta" reason members) := by
    unfold RetryConfig.classify classifyFrame
    rw [splitOn_line lines, List.foldl_cons, classifyLine_blank empty]
    simp only [classifyLine, text, trimAscii_object, if_neg unmarked, read]
  unfold streamsPrematureStop
  rw [cls]
  have reasonHere : (classifyValue .none (singleChoice "delta" reason members)).finishReason =
      some reason := rfl
  have content : (classifyValue .none (singleChoice "delta" reason members)).hasContent =
      deltaHasContent (.object members) := rfl
  have toolCalls : (classifyValue .none (singleChoice "delta" reason members)).hasToolCalls =
      deltaHasToolCalls (.object members) := rfl
  simp only [reasonHere, Option.any_some, RetryTask.degenerate, RetryTask.sawAnything, RetryTask.note,
    RetryTask.start, content, toolCalls, Bool.false_or, Bool.not_or]
  rfl

/-- The two rules agree exactly on turns whose finish reason is no degenerate one, in
    which the streaming rule sees content or a tool call, or in which both members are
    of a kind that the rules read alike. -/
theorem detectors_agree_iff {cfg : RetryConfig} {inner : Bytes} {reason : String}
    {members : List (String × Json)} (guard : LifecycleGuard) (n : Nat) (oneLine : lf ∉ inner)
    (read : cfg.fromSlice (123 :: (inner ++ [125])) = some (singleChoice "delta" reason members))
    (empty : cfg.fromSlice [] = none) :
    isPrematureStop (singleChoice "message" reason members) =
        streamsPrematureStop cfg guard
          (ascii "data: " ++ (123 :: (inner ++ [125])) ++ List.replicate n lf) ↔
      isDegenerateReason reason = false ∨ deltaHasContent (.object members) = true ∨
        deltaHasToolCalls (.object members) = true ∨
          (((Json.object members).get "content").any isDoubtfulContent = false ∧
            ((Json.object members).get "tool_calls").any isDoubtfulToolCalls = false) := by
  rw [isPrematureStop_singleChoice, streamsPrematureStop_singleChoice oneLine read empty,
    messageHasContent_eq, messageHasToolCalls_eq]
  cases isDegenerateReason reason <;> cases deltaHasContent (.object members) <;>
    cases deltaHasToolCalls (.object members) <;>
    cases ((Json.object members).get "content").any isDoubtfulContent <;>
    cases ((Json.object members).get "tool_calls").any isDoubtfulToolCalls <;> decide

/-- A configuration whose reader knows one text. -/
def RetryConfig.readingOnly (text : Bytes) (value : Json) : RetryConfig :=
  { RetryConfig.sample with fromSlice := fun bytes => if bytes = text then some value else none }

theorem RetryConfig.readingOnly_text (text : Bytes) (value : Json) :
    (RetryConfig.readingOnly text value).fromSlice text = some value := if_pos rfl

/-- The inside of the JSON of a turn that stops with this member. -/
def stopText (member : String) : Bytes :=
  ascii ("\"choices\":[\x7b\"finish_reason\":\"stop\",\"delta\":\x7b" ++ member ++ "\x7d\x7d]")

theorem detectors_agree_iff_empty :
    isPrematureStop (singleChoice "message" "stop" [("content", .string "")]) =
      streamsPrematureStop
        (.readingOnly (123 :: (stopText "\"content\":\"\"" ++ [125]))
          (singleChoice "delta" "stop" [("content", .string "")])) (.new ⟨"f"⟩ 100)
        (ascii "data: " ++ (123 :: (stopText "\"content\":\"\"" ++ [125])) ++ List.replicate 2 lf) := by
  have oneLine : lf ∉ stopText "\"content\":\"\"" := by decide +kernel
  apply (detectors_agree_iff (.new ⟨"f"⟩ 100) 2 oneLine (RetryConfig.readingOnly_text _ _) rfl).mpr
  exact .inr (.inr (.inr ⟨rfl, rfl⟩))

/-- A turn whose content is a number is accepted as a body and retried as a stream. -/
theorem number_told_apart :
    isPrematureStop (singleChoice "message" "stop" [("content", .number (.posInt 7))]) = false ∧
      streamsPrematureStop
        (.readingOnly (123 :: (stopText "\"content\":7" ++ [125]))
          (singleChoice "delta" "stop" [("content", .number (.posInt 7))])) (.new ⟨"f"⟩ 100)
        (ascii "data: " ++ (123 :: (stopText "\"content\":7" ++ [125]))) = true := by
  decide +kernel

/-- The temperature that a request asks for; the default where it names none. -/
def requestTemperature (policy : RetryPolicy) (body : Json) : Option ℚ :=
  match body.get "temperature" with
  | none => some policy.defaultTemperature
  | some (.number n) => some n.toRat
  | some _ => none

/-- The temperatures of the request and of its retries. -/
def temperatureAt (policy : RetryPolicy) (body : Json) (t : ℚ) : Nat → Option ℚ
  | 0 => some t
  | attempt + 1 => do
      let bumped ← bumpTemperature body (attempt + 1) policy
      match bumped.get "temperature" with
      | some (.number n) => some n.toRat
      | _ => none

/-- What is expected of the temperatures of the retries of a request. -/
structure TemperatureBump (policy : RetryPolicy) (body : Json) : Prop where
  total : ∀ attempt, (bumpTemperature body attempt policy).isSome = true
  frame : ∀ members, body = .object members → ∀ attempt bumped,
    bumpTemperature body attempt policy = some bumped →
      ∀ name, name ≠ "temperature" → bumped.get name = body.get name
  exact : ∀ t, requestTemperature policy body = some t → t ≤ policy.maxTemperature →
    ∃ temperature : Nat → ℚ, (∀ k, temperatureAt policy body t k = some (temperature k)) ∧
      (∀ k, temperature k = min (t + k * policy.temperatureStep) policy.maxTemperature) ∧
        Monotone temperature ∧ ∀ k, temperature k ≤ policy.maxTemperature

section

variable {policy : RetryPolicy} {body bumped : Json} {attempt : Nat} {t : ℚ}

/-- The temperature that the retries start from: an integer does not count. -/
def bumpBase (policy : RetryPolicy) (body : Json) : ℚ :=
  match body.get "temperature" with
  | some (.number n) => n.asFloat?.getD policy.defaultTemperature
  | _ => policy.defaultTemperature

/-- Retry temperatures from a base. -/
def stepped (policy : RetryPolicy) (base : ℚ) (k : Nat) : ℚ :=
  min (base + k * policy.temperatureStep) policy.maxTemperature

theorem bumpTemperature_spec (bump : bumpTemperature body attempt policy = some bumped) :
    bumped.get "temperature" = some (.number (.float (stepped policy (bumpBase policy body) attempt))) ∧
      ∀ name, name ≠ "temperature" → bumped.get name = body.get name :=
  Json.get_of_set bump

theorem temperatureAt_succ (assignable : body.isAssignable = true) (k : Nat) :
    temperatureAt policy body t (k + 1) = some (stepped policy (bumpBase policy body) (k + 1)) := by
  have total : (bumpTemperature body (k + 1) policy).isSome = true := by
    rw [← assignable]
    exact Json.isSome_set _ _ _
  obtain ⟨bumped, bump⟩ := Option.isSome_iff_exists.mp total
  simp only [temperatureAt, bump, Option.bind_eq_bind, Option.bind_some, (bumpTemperature_spec bump).1,
    JsonNumber.toRat]

theorem stepped_mono (positive : 0 < policy.temperatureStep) (base : ℚ) :
    Monotone (stepped policy base) := by
  intro k l less
  apply min_le_min_right
  have more : (k : ℚ) ≤ l := by exact_mod_cast less
  nlinarith

theorem stepped_zero (inRange : t ≤ policy.maxTemperature) : stepped policy t 0 = t := by
  simp [stepped, inRange]

theorem stepped_max (positive : 0 < policy.temperatureStep) {base : ℚ}
    (high : policy.maxTemperature ≤ base + policy.temperatureStep) (k : Nat) :
    stepped policy base (k + 1) = policy.maxTemperature := by
  apply min_eq_right
  have more : 0 ≤ (k : ℚ) * policy.temperatureStep := by positivity
  push_cast
  linarith

theorem high_of_stepped_eq {b : ℚ} (less : t < b)
    (same : stepped policy b 1 = stepped policy t 1) :
    policy.maxTemperature ≤ t + policy.temperatureStep := by
  by_contra low
  have here : stepped policy t 1 = t + policy.temperatureStep := by
    simp only [stepped, Nat.cast_one, one_mul]
    exact min_eq_left (le_of_not_ge low)
  have above : t + policy.temperatureStep < stepped policy b 1 := by
    simp only [stepped, Nat.cast_one, one_mul]
    exact lt_min (by linarith) (lt_of_not_ge low)
  rw [same, here] at above
  exact lt_irrefl _ above

/-- Two bases give the same retries only if they are the same, or if the first retry
    is at the maximum already. -/
theorem stepped_eq_iff (positive : 0 < policy.temperatureStep) (b : ℚ) :
    (∀ k : Nat, stepped policy b (k + 1) = stepped policy t (k + 1)) ↔
      t = b ∨ policy.maxTemperature ≤ t + policy.temperatureStep ∧
        policy.maxTemperature ≤ b + policy.temperatureStep := by
  constructor
  · intro same
    rcases lt_trichotomy t b with less | equal | more
    · have high := high_of_stepped_eq less (same 0)
      exact .inr ⟨high, by linarith⟩
    · exact .inl equal
    · have high := high_of_stepped_eq more (same 0).symm
      exact .inr ⟨by linarith, high⟩
  · intro condition k
    rcases condition with rfl | ⟨highT, highB⟩
    · rfl
    · rw [stepped_max positive highB, stepped_max positive highT]

theorem bumpBase_eq (request : requestTemperature policy body = some t) :
    bumpBase policy body = t ∨ ∃ n : JsonNumber, body.get "temperature" = some (.number n) ∧
      n.asFloat? = none ∧ n.toRat = t ∧ bumpBase policy body = policy.defaultTemperature := by
  unfold requestTemperature at request
  unfold bumpBase
  split at request
  · rename_i absent
    rw [absent]
    exact .inl (Option.some.inj request)
  · rename_i n present
    simp only [present]
    cases n with
    | float q => exact .inl (Option.some.inj request)
    | posInt | negInt => exact .inr ⟨_, rfl, rfl, Option.some.inj request, rfl⟩
  · cases request

/-- The retries do what is expected of them exactly if the body is an object (or null),
    and an integer for its temperature makes no difference: it is the default, or the
    first retry is at the maximum from either. -/
theorem temperature_bump_iff {cfg : Config} (accepted : cfg.validate = .ok ())
    (enabled : cfg.retryPolicy.enabled = true) (body : Json) :
    TemperatureBump cfg.retryPolicy body ↔
      body.isAssignable = true ∧ ∀ n : JsonNumber, body.get "temperature" = some (.number n) →
        n.asFloat? = none → n.toRat ≤ cfg.retryPolicy.maxTemperature →
          n.toRat = cfg.retryPolicy.defaultTemperature ∨
            cfg.retryPolicy.maxTemperature ≤ n.toRat + cfg.retryPolicy.temperatureStep ∧
              cfg.retryPolicy.maxTemperature ≤
                cfg.retryPolicy.defaultTemperature + cfg.retryPolicy.temperatureStep := by
  obtain ⟨positive, -⟩ := Config.temperatures_of_validate accepted enabled
  constructor
  · intro bump
    have assignable : body.isAssignable = true := (Json.isSome_set _ _ _).symm.trans (bump.total 1)
    refine ⟨assignable, fun n present whole inRange => ?_⟩
    have request : requestTemperature cfg.retryPolicy body = some n.toRat := by
      simp [requestTemperature, present]
    have base : bumpBase cfg.retryPolicy body = cfg.retryPolicy.defaultTemperature := by
      simp [bumpBase, present, whole]
    obtain ⟨temperature, given, exact_, -, -⟩ := bump.exact n.toRat request inRange
    apply (stepped_eq_iff positive cfg.retryPolicy.defaultTemperature).mp
    intro k
    have here := given (k + 1)
    rw [temperatureAt_succ assignable, base, Option.some.injEq] at here
    rw [here, exact_]
    rfl
  · rintro ⟨assignable, integers⟩
    refine ⟨fun attempt => ?_, fun members _ attempt bumped bump => (bumpTemperature_spec bump).2, ?_⟩
    · rw [← assignable]
      exact Json.isSome_set _ _ _
    · intro t request inRange
      have same : ∀ k : Nat, stepped cfg.retryPolicy (bumpBase cfg.retryPolicy body) (k + 1) =
          stepped cfg.retryPolicy t (k + 1) := by
        rcases bumpBase_eq request with base | ⟨n, present, whole, rfl, base⟩
        · rw [base]
          exact fun _ => rfl
        · rw [base]
          exact (stepped_eq_iff positive _).mpr (integers n present whole inRange)
      refine ⟨stepped cfg.retryPolicy t, ?_, fun _ => rfl, stepped_mono positive t,
        fun _ => min_le_right _ _⟩
      intro k
      cases k with
      | zero =>
          rw [stepped_zero inRange]
          rfl
      | succ k => rw [temperatureAt_succ assignable, same]

end

/-- The defaults, with retries on. -/
def Config.retrying : Config :=
  { Config.default with retryPolicy := { RetryPolicy.default with enabled := true } }

theorem Config.validate_retrying : Config.retrying.validate = .ok () := by decide +kernel

def halfTemperature : Json := .object [("temperature", .number (.float (1 / 2)))]

theorem temperature_bump_iff_half : TemperatureBump Config.retrying.retryPolicy halfTemperature := by
  apply (temperature_bump_iff Config.validate_retrying rfl halfTemperature).mpr
  refine ⟨rfl, fun n present whole => ?_⟩
  obtain rfl : JsonNumber.float (1 / 2) = n := by
    have found : halfTemperature.get "temperature" = some (.number (.float (1 / 2))) := rfl
    rw [found] at present
    exact Json.number.inj (Option.some.inj present)
  cases whole

def wholeTemperature : Json := .object [("temperature", .number (.posInt 1))]

/-- The first retry of a request at 1 is at 3/10, and that of an array panics. -/
theorem whole_temperature_lowered :
    ¬ TemperatureBump Config.retrying.retryPolicy wholeTemperature ∧
      ¬ TemperatureBump Config.retrying.retryPolicy (.array []) := by
  constructor
  · intro bump
    obtain ⟨temperature, given, -, rising, -⟩ := bump.exact 1 (by decide +kernel) (by decide +kernel)
    have original : temperature 0 = 1 := (Option.some.inj (given 0)).symm
    have lowered : temperature 1 = 3 / 10 := by
      have here : temperatureAt Config.retrying.retryPolicy wholeTemperature 1 1 = some (3 / 10) := by
        decide +kernel
      exact Option.some.inj ((given 1).symm.trans here)
    have less := rising (Nat.zero_le 1)
    rw [original, lowered] at less
    norm_num at less
  · intro bump
    cases bump.total 1

end TinyLlb

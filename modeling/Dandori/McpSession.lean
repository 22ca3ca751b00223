import Dandori.Transports
import Mathlib.Data.List.TakeWhile

/-!
# The stdio session of the MCP server

The server reads standard input line by line, answers each line that is not blank, and writes every
answer as a line of its own. Between two answers other processes change the database and tokens expire.
A line that is not UTF-8 makes `next_line` fail, and the `?` behind it ends the session.
-/

namespace Dandori

/-! ## Lines of bytes -/

def newline : UInt8 := 0x0a

/-- A line of standard input, without the newline that ends it. -/
structure InputLine where
  content : List UInt8
  newline_notMem : newline ∉ content

def InputLine.bytes (line : InputLine) : List UInt8 := line.content ++ [newline]

/-- The bytes up to each newline and with it, and what is left after the last. -/
def splitLines : List UInt8 → List (List UInt8)
  | [] => []
  | b :: bytes =>
      if b = newline then [b] :: splitLines bytes
      else
        match splitLines bytes with
        | [] => [[b]]
        | line :: lines => (b :: line) :: lines

theorem splitLines_append {content : List UInt8} (h : newline ∉ content) (rest : List UInt8) :
    splitLines (content ++ newline :: rest) = (content ++ [newline]) :: splitLines rest := by
  induction content with
  | nil => exact if_pos rfl
  | cons b content ih =>
      have hb : b ≠ newline := fun hb => h (hb ▸ List.mem_cons_self)
      rw [List.cons_append, splitLines, if_neg hb, ih (fun hmem => h (List.mem_cons_of_mem b hmem))]
      rfl

theorem splitLines_flatMap (lines : List InputLine) :
    splitLines (lines.flatMap InputLine.bytes) = lines.map InputLine.bytes := by
  induction lines with
  | nil => rfl
  | cons line lines ih =>
      rw [List.flatMap_cons, InputLine.bytes, List.append_assoc, List.singleton_append,
        splitLines_append line.newline_notMem, ih]
      rfl

def withoutLineEnd (text : String) : String :=
  if text.toList.getLast? = some '\n' then
    let rest := text.toList.dropLast
    String.ofList (if rest.getLast? = some '\r' then rest.dropLast else rest)
  else text

def nextLine (bytes : List UInt8) : Option String :=
  (String.fromUTF8? ⟨bytes.toArray⟩).map withoutLineEnd

theorem nextLine_isSome {bytes : List UInt8} :
    (nextLine bytes).isSome = true ↔ ByteArray.IsValidUTF8 ⟨bytes.toArray⟩ := by
  rw [nextLine, Option.isSome_map, String.fromUTF8?]
  split_ifs with h
  · exact iff_of_true rfl h
  · exact iff_of_false Bool.false_ne_true h

def blank (bytes : List UInt8) : Bool := (nextLine bytes).any trimIsEmpty

/-! ## The loop -/

/-- What the server meets while it answers a line. -/
structure Turn where
  others : Db → Db
  authenticate : String → Option AuthContext
  serving : Serving

inductive Ended
  | endOfInput
  | readError
  deriving DecidableEq

structure StdioSession where
  db : Db
  answered : ℕ
  stdout : String

namespace Transport

variable (t : Transport)

def during (turn : Turn) : Transport := { t with authenticate := turn.authenticate }

/-- What is written for a response. -/
def payload (response : JsonRpcResponse) : String := t.json.compact response.toValue ++ "\n"

def serveLine (turns : ℕ → Turn) (line : String) (s : StdioSession) : StdioSession :=
  if trimIsEmpty line then s
  else
    let turn := turns s.answered
    let (response, db') := (t.during turn).respond line turn.serving (turn.others s.db)
    { db := db', answered := s.answered + 1, stdout := s.stdout ++ t.payload response }

def serveLines (turns : ℕ → Turn) : List (List UInt8) → StdioSession → Ended × StdioSession
  | [], s => (.endOfInput, s)
  | bytes :: lines, s =>
      match nextLine bytes with
      | none => (.readError, s)
      | some line => serveLines turns lines (t.serveLine turns line s)

/-- The loop of `main` over standard input. -/
def stdioSession (turns : ℕ → Turn) (stdin : List UInt8) (db : Db) : Ended × StdioSession :=
  t.serveLines turns (splitLines stdin) ⟨db, 0, ""⟩

/-! ## One response to every line -/

def requestOf (bytes : List UInt8) : Option JsonRpcRequest :=
  (nextLine bytes).bind (fun line => (t.parseJsonRpcRequest line).toOption)

structure Answers (line : InputLine) (response : JsonRpcResponse) : Prop where
  version : response.jsonrpc = "2.0"
  exclusive : response.result.isSome = !response.error.isSome
  id : response.id = ((t.requestOf line.bytes).map JsonRpcRequest.id).getD .null
  singleLine : '\n' ∉ (t.json.compact response.toValue).toList

/-- The session reaches the end of the input, and has written a response to each line that is not blank,
in their order and nothing else. -/
def AnswersEveryLine (turns : ℕ → Turn) (lines : List InputLine) (db : Db) : Prop :=
  let outcome := t.stdioSession turns (lines.flatMap InputLine.bytes) db
  outcome.1 = .endOfInput ∧ ∃ responses,
    outcome.2.stdout = String.join (responses.map t.payload) ∧
    List.Forall₂ t.Answers (lines.filter (fun line => !blank line.bytes)) responses

section Response

variable {t : Transport}

/-- A response with the id has a result or an error. -/
theorem handleJsonRpc_cases (request : JsonRpcRequest) (serving : Serving) (db : Db) :
    (∃ result, (t.handleJsonRpc request serving db).1 = .ok request.id result) ∨
    ∃ code message, (t.handleJsonRpc request serving db).1 = .fail request.id code message := by
  rw [handleJsonRpc]
  split
  · exact Or.inr ⟨_, _, rfl⟩
  · split
    · exact Or.inl ⟨_, rfl⟩
    · exact Or.inl ⟨_, rfl⟩
    · split
      · exact Or.inr ⟨_, _, rfl⟩
      · exact Or.inl ⟨_, rfl⟩
    · exact Or.inr ⟨_, _, rfl⟩

theorem answers_ok {line : InputLine} {id : Value}
    (h : ((t.requestOf line.bytes).map JsonRpcRequest.id).getD .null = id) (result : Value) :
    t.Answers line (.ok id result) :=
  ⟨rfl, rfl, h.symm, t.json.compact_singleLine _⟩

theorem answers_fail {line : InputLine} {id : Value}
    (h : ((t.requestOf line.bytes).map JsonRpcRequest.id).getD .null = id) (code : Int)
    (message : String) : t.Answers line (.fail id code message) :=
  ⟨rfl, rfl, h.symm, t.json.compact_singleLine _⟩

theorem respond_answers {line : InputLine} {text : String} (h : nextLine line.bytes = some text)
    (turn : Turn) (serving : Serving) (db : Db) :
    t.Answers line ((t.during turn).respond text serving db).1 := by
  have hrequest : t.requestOf line.bytes = (t.parseJsonRpcRequest text).toOption := by
    rw [requestOf, h, Option.bind_some]
  have hduring : (t.during turn).parseJsonRpcRequest text = t.parseJsonRpcRequest text := rfl
  rw [respond, hduring]
  cases hparse : t.parseJsonRpcRequest text with
  | error message =>
      rw [hparse] at hrequest
      exact answers_fail (by rw [hrequest]; rfl) _ _
  | ok request =>
      rw [hparse] at hrequest
      have hid : ((t.requestOf line.bytes).map JsonRpcRequest.id).getD .null = request.id := by
        rw [hrequest]
        rfl
      rcases handleJsonRpc_cases (t := t.during turn) request serving db with
        ⟨result, hresult⟩ | ⟨code, message, hfail⟩
      · rw [hresult]
        exact answers_ok hid result
      · rw [hfail]
        exact answers_fail hid code message

end Response

section Loop

variable (t : Transport) (turns : ℕ → Turn)

theorem serveLine_stdout {line : InputLine} {text : String} (h : nextLine line.bytes = some text)
    (s : StdioSession) : ∃ responses,
      (t.serveLine turns text s).stdout = s.stdout ++ String.join (responses.map t.payload) ∧
      List.Forall₂ t.Answers ([line].filter (fun line => !blank line.bytes)) responses := by
  have hblank : blank line.bytes = trimIsEmpty text := by rw [blank, h, Option.any_some]
  cases htext : trimIsEmpty text with
  | true =>
      refine ⟨[], ?_, ?_⟩
      · rw [serveLine, if_pos htext]
        simp
      · simp [hblank, htext]
  | false =>
      refine ⟨[((t.during (turns s.answered)).respond text (turns s.answered).serving
        ((turns s.answered).others s.db)).1], ?_, ?_⟩
      · simp [serveLine, htext]
      · simp only [List.filter_cons, List.filter_nil, hblank, htext]
        exact .cons (respond_answers h _ _ _) .nil

/-- The lines before the first that is not UTF-8 are answered, and the session ends at that line. -/
theorem serveLines_stdout (lines : List InputLine) (s : StdioSession) :
    ((t.serveLines turns (lines.map InputLine.bytes) s).1 = .endOfInput ↔
      ∀ line ∈ lines, (nextLine line.bytes).isSome = true) ∧
    ∃ responses, (t.serveLines turns (lines.map InputLine.bytes) s).2.stdout =
        s.stdout ++ String.join (responses.map t.payload) ∧
      List.Forall₂ t.Answers ((lines.takeWhile (fun line => (nextLine line.bytes).isSome)).filter
        (fun line => !blank line.bytes)) responses := by
  induction lines generalizing s with
  | nil => exact ⟨iff_of_true rfl (by simp), [], by simp [serveLines], .nil⟩
  | cons line lines ih =>
      cases hline : nextLine line.bytes with
      | none =>
          simp only [List.map_cons, serveLines, hline, List.takeWhile_cons]
          refine ⟨iff_of_false (by decide) (fun h => ?_), [], by simp, .nil⟩
          have hfirst := h line List.mem_cons_self
          rw [hline] at hfirst
          cases hfirst
      | some text =>
          simp only [List.map_cons, serveLines, hline, List.takeWhile_cons, Option.isSome_some,
            if_true]
          obtain ⟨hended, responses, hstdout, hanswers⟩ := ih (t.serveLine turns text s)
          obtain ⟨first, hfirst, hanswer⟩ := serveLine_stdout t turns hline s
          refine ⟨hended.trans (by simp [hline]), first ++ responses, ?_, ?_⟩
          · rw [hstdout, hfirst]
            simp [String.append_assoc]
          · rw [← List.singleton_append, List.filter_append]
            exact List.rel_append hanswer hanswers

end Loop

/-- The session answers every line exactly when every line is UTF-8. -/
theorem answersEveryLine_iff (t : Transport) (turns : ℕ → Turn) (lines : List InputLine) (db : Db) :
    t.AnswersEveryLine turns lines db ↔
      ∀ line ∈ lines, ByteArray.IsValidUTF8 ⟨line.bytes.toArray⟩ := by
  obtain ⟨hended, responses, hstdout, hanswers⟩ :=
    serveLines_stdout t turns lines ⟨db, 0, ""⟩
  simp only [AnswersEveryLine, stdioSession, splitLines_flatMap, ← nextLine_isSome]
  refine ⟨fun h => hended.mp h.1, fun h => ⟨hended.mpr h, responses, ?_, ?_⟩⟩
  · rw [hstdout]
    exact String.empty_append
  · have hall : lines.takeWhile (fun line => (nextLine line.bytes).isSome) = lines :=
      List.takeWhile_eq_self_iff.mpr h
    rwa [hall] at hanswers

/-- `0xff` is in no UTF-8 text. -/
def undecodableLine : InputLine := ⟨[0xff], by decide⟩

theorem undecodableLine_not_answersEveryLine : ¬(sample []).AnswersEveryLine
    (fun _ => ⟨id, (sample []).authenticate, sampleServing⟩) [undecodableLine] .empty := by
  rintro ⟨hended, _⟩
  rw [stdioSession, splitLines_flatMap] at hended
  have hread := (serveLines_stdout _ _ _ _).1.mp hended undecodableLine List.mem_cons_self
  have hnone : (nextLine undecodableLine.bytes).isSome = false := by decide +kernel
  rw [hnone] at hread
  cases hread

end Transport
end Dandori

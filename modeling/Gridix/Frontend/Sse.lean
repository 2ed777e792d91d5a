import Gridix.Base.PyJson
import Gridix.Base.Utf8Decoder

/-!
# The event stream of a chat completion

The backend writes one frame for each payload (`sse` of `streaming_chat.py`),
and the page reads the bytes as they arrive (`lib/inference/sse.ts`).
-/

namespace Gridix.Sse

open Js PyJson List

abbrev Payload := List (Text × Value)

inductive Data where
  | object (payload : Payload)
  | text (value : List Char)

def body : Data → List Char
  | .object payload => dumps (.dict payload)
  | .text value => value

def sse (data : Data) : List Char := "data: ".toList ++ body data ++ "\n\n".toList

def done : List Char := "[DONE]".toList

def frames (payloads : List Payload) : List Data := payloads.map .object ++ [.text done]

def stream (payloads : List Payload) : List UInt8 :=
  (frames payloads).flatMap fun data => Utf8.encode (sse data)

def text (value : String) : Text := value.toList.map fun char => Fin.ofNat _ char.toNat

def chunk (completionId : Text) (created : Int) (model : Text)
    (delta : Payload) (finish : Option Text) : Payload :=
  [(text "id", .str completionId), (text "object", .str (text "chat.completion.chunk")),
    (text "created", .int created), (text "model", .str model),
    (text "choices", .list [.dict [(text "index", .int 0), (text "delta", .dict delta),
        (text "finish_reason", (finish.map Value.str).getD .none)]])]

structure ChatUsage where
  promptTokens : Number
  completionTokens : Number
  totalTokens : Number
  deriving DecidableEq

inductive ChatStreamEvent where
  | delta (content : Str)
  | finish (reason : Str)
  | usage (usage : ChatUsage) (costUsdc providerId : Str)
  | error (message : Str)
  deriving DecidableEq

/-- The members of a value that `isRecord` accepts. -/
def isRecord : Option Json → Option (List (Str × Json))
  | some (.object members) => some members
  | _ => none

def isString : Option Json → Option Str
  | some (.string text) => some text
  | _ => none

def asNonNegativeInt : Option Json → Option Number
  | some (.number value) =>
    if !value.isFinite || value.isNegative then none else some value.floor
  | _ => none

def readUsage (raw : Option Json) : Option ChatUsage := do
  let raw ← isRecord raw
  let prompt ← asNonNegativeInt (get raw "prompt_tokens")
  let completion ← asNonNegativeInt (get raw "completion_tokens")
  let total := asNonNegativeInt (get raw "total_tokens")
  return ⟨prompt, completion, total.getD (prompt.add completion)⟩

def nonEmpty (value : Option Json) : Option Str := (isString value).filter (· ≠ [])

def firstChoice (payload : List (Str × Json)) : Option (List (Str × Json)) :=
  match get payload "choices" with
  | some (.array items) => isRecord items.head?
  | _ => none

/-- What a choice carries: some text, and why it ended. -/
def choiceEvents (first : List (Str × Json)) : List ChatStreamEvent :=
  let content := (isRecord (get first "delta")).bind (get · "content")
  ((nonEmpty content).map .delta).toList ++
    ((nonEmpty (get first "finish_reason")).map .finish).toList

def usageEvents (payload : List (Str × Json)) : List ChatStreamEvent :=
  match readUsage (get payload "usage") with
  | none => []
  | some usage =>
    [.usage usage ((isString (get payload "cost_usdc")).getD (lit "0"))
      ((isString (get payload "provider_id")).getD [])]

/-- The events that a payload is read as. -/
def eventsFromFrame (payload : Json) : List ChatStreamEvent :=
  match isRecord (some payload) with
  | none => []
  | some payload =>
    match isRecord (get payload "error") with
    | some error =>
      [.error ((isString (get error "message")).getD (lit "Inference failed."))]
    | none =>
      ((firstChoice payload).map choiceEvents).getD [] ++ usageEvents payload

def newline : Str := lit "\n"

def blankLine : Str := lit "\n\n"

structure Reader where
  decoder : Utf8.Decoder := {}
  buffer : Str := []

def dataOf (frame : Str) : Str :=
  join (((split frame newline).filter (startsWith · (lit "data:"))).map
    fun line => trim (line.drop (lit "data:").length)) newline

def yielded (frames : List Str) : List Str := (frames.map dataOf).filter (· ≠ [])

def Reader.read (reader : Reader) (value : List UInt8) : Reader × List Str :=
  let decoded := reader.decoder.decode value
  let frames := split (reader.buffer ++ ofScalars decoded.2) blankLine
  (⟨decoded.1, frames.getLast?.getD []⟩, yielded frames.dropLast)

/-- The loop of `chatStreamEvents` over what one read yields: the events, and
whether it returned. -/
def consume : List Str → List ChatStreamEvent × Bool
  | [] => ([], false)
  | data :: rest =>
    if data = ascii done then ([], true)
    else
      match parseJson data with
      | none => consume rest
      | some parsed =>
        (eventsFromFrame parsed ++ (consume rest).1, (consume rest).2)

/-- `chatStreamEvents` without a signal, over the reads of the body: the
events, and whether it returned at the terminator. -/
def chatStreamEvents (reader : Reader) : List (List UInt8) → List ChatStreamEvent × Bool
  | [] => ([], false)
  | value :: reads =>
    let now := consume (reader.read value).2
    if now.2 then now
    else
      let later := chatStreamEvents (reader.read value).1 reads
      (now.1 ++ later.1, later.2)

def textOf (bytes : List UInt8) : Str := ascii (bytes.map fun byte => Char.ofNat byte.toNat)

theorem textOf_append (left right : List UInt8) :
    textOf (left ++ right) = textOf left ++ textOf right := by
  simp [textOf]

structure Ready (reader : Reader) : Prop where
  idle : reader.decoder.needed = 0
  unfinished : Splitting.cut blankLine reader.buffer = ⟨[], reader.buffer⟩

theorem ready_start : Ready {} := ⟨rfl, rfl⟩

variable {reader : Reader} {data : Data} {datas : List Data}

theorem read_ascii (ready : Ready reader)
    {value : List UInt8} (small : ∀ byte ∈ value, byte.toNat < 0x80) :
    let cut := Splitting.cut blankLine (reader.buffer ++ textOf value)
    Ready (reader.read value).1 ∧ (reader.read value).1.buffer = cut.part ∧
      (reader.read value).2 = yielded cut.parts := by
  obtain ⟨idle, chars⟩ := Utf8.Decoder.decode_ascii ready.idle small
  have text : ofScalars (reader.decoder.decode value).2 = textOf value := by
    rw [chars]
    refine ofScalars_ascii fun char mem => ?_
    obtain ⟨byte, here, rfl⟩ := mem_map.mp mem
    have all : ∀ code : Fin 0x80, (Char.ofNat code).toNat < 0x80 := by decide
    exact all ⟨byte.toNat, (small byte here)⟩
  have buffer : (reader.read value).1.buffer =
      (Splitting.cut blankLine (reader.buffer ++ textOf value)).part := by
    simp [Reader.read, text, split, Splitting.split]
  refine ⟨⟨idle, ?_⟩, buffer, ?_⟩
  · rw [buffer]
    exact Splitting.cut_part _
  · simp [Reader.read, text, split, Splitting.split]

theorem consume_append (left right : List Str) : consume (left ++ right) =
      if (consume left).2 then consume left
      else ((consume left).1 ++ (consume right).1, (consume right).2) := by
  induction left with
  | nil => rfl
  | cons data left ih =>
    rw [cons_append, consume, consume, ih]
    by_cases terminator : data = ascii done
    · simp [terminator]
    · simp only [if_neg terminator]
      cases parseJson data with
      | none => rfl
      | some =>
        by_cases ended : (consume left).2 = true
        · simp only [if_pos ended]
        · simp only [if_neg ended, append_assoc]

theorem yielded_append (left right : List Str) :
    yielded (left ++ right) = yielded left ++ yielded right := by
  simp [yielded]

theorem chatStreamEvents_cut (ready : Ready reader) {reads : List (List UInt8)}
    (small : ∀ byte ∈ reads.flatten, byte.toNat < 0x80) (later : List (List UInt8))
    (returns : (consume (yielded (Splitting.cut blankLine
      (reader.buffer ++ textOf reads.flatten)).parts)).2 = true) :
    chatStreamEvents reader (reads ++ later) = consume (yielded (Splitting.cut blankLine
        (reader.buffer ++ textOf reads.flatten)).parts) := by
  -- The invariant: the buffer is what the text so far leaves over.
  induction reads generalizing reader with
  | nil =>
    rw [flatten_nil, textOf, map_nil, ascii_nil, append_nil, ready.unfinished] at returns
    exact absurd returns Bool.false_ne_true
  | cons value _ ih =>
    obtain ⟨ready, buffer, yields⟩ := read_ascii ready fun byte mem =>
      small byte (mem_append_left _ mem)
    rw [flatten_cons, textOf_append, ← append_assoc,
      Splitting.cut_append, ← buffer, yielded_append, ← yields,
      consume_append] at returns ⊢
    rw [cons_append, chatStreamEvents]
    by_cases ended : (consume (reader.read value).2).2 = true
    · simp only [if_pos ended]
    · simp only [if_neg ended] at returns ⊢
      rw [ih ready (fun byte mem =>
        small byte (mem_append_right _ mem)) returns]

def line (data : Data) : List Char := "data: ".toList ++ body data

theorem ascii_sse (data : Data) : ascii (sse data) = ascii (line data) ++ blankLine :=
  ascii_append (line data) "\n\n".toList

structure Written (data : Data) : Prop where
  printable : Printable (body data)
  first : ∀ char ∈ (ascii (body data)).head?, isSpace char = false
  last : ∀ char ∈ (ascii (body data)).getLast?, isSpace char = false
  nonempty : body data ≠ []

theorem written_done : Written (.text done) := by
  refine ⟨by decide, ?_, ?_, by decide⟩
  · intro _ first
    obtain rfl := Option.some.inj first
    decide
  · intro _ last
    obtain rfl := Option.some.inj last
    decide

theorem Written.line (written : Written data) : Printable (line data) :=
  .append (by decide) written.printable

theorem newline_not_mem {text : List Char} (printable : Printable text) :
    unit '\n' ∉ ascii text := by
  intro mem
  obtain ⟨char, here, same⟩ := mem_map.mp mem
  obtain ⟨_, _⟩ := printable char here
  have code := congrArg UInt16.toNat same
  rw [toNat_unit (by omega), toNat_unit (by decide)] at code
  have : ('\n').toNat = 10 := rfl
  omega

theorem blankLine_first {text : List Char} (printable : Printable text) :
    ¬ blankLine <:+: ascii text ++ blankLine.dropLast := by
  intro inside
  have twice := inside.sublist.count_le (unit '\n')
  have none := count_eq_zero.mpr (newline_not_mem printable)
  have two : blankLine.count (unit '\n') = 2 := by decide
  have one : blankLine.dropLast.count (unit '\n') = 1 := by decide
  rw [count_append] at twice
  omega

theorem dataOf_line (written : Written data) : dataOf (ascii (line data)) = ascii (body data) := by
  have whole : split (ascii (line data)) newline = [ascii (line data)] := by
    have absent : ¬ newline <:+: ascii (line data) := fun inside =>
      newline_not_mem written.line (inside.subset mem_cons_self)
    rw [split, Splitting.split, Splitting.cut_of_not_infix absent]
    rfl
  have space : isSpace (unit ' ') = true := by decide
  have field : ascii "data: ".toList = lit "data:" ++ [unit ' '] := by decide
  have shape : ascii (line data) = lit "data:" ++ unit ' ' :: ascii (body data) := by
    refine (ascii_append "data: ".toList (body data)).trans ?_
    rfl
  have starts : startsWith (ascii (line data)) (lit "data:") = true := by
    rw [startsWith, isPrefixOf_iff_prefix]
    exact prefix_append _ _
  have rest : (ascii (line data)).drop (lit "data:").length = unit ' ' :: ascii (body data) := by
    rw [shape, drop_left]
  have kept : [ascii (line data)].filter (startsWith · (lit "data:")) = [ascii (line data)] := by
    rw [filter_eq_self]
    intro _ mem
    rw [mem_singleton.mp mem]
    exact starts
  rw [dataOf, whole, kept, map_singleton, rest, trim_cons_space space,
    trim_eq_self written.first written.last]
  exact append_nil _

theorem yielded_lines (written : ∀ data ∈ datas, Written data) :
    yielded (datas.map fun data => ascii (line data)) =
      datas.map fun data => ascii (body data) := by
  have bodies : (datas.map fun data => ascii (line data)).map dataOf =
      datas.map fun data => ascii (body data) := by
    rw [map_map]
    exact map_congr_left fun data mem =>
      dataOf_line (written data mem)
  rw [yielded, bodies, filter_eq_self]
  intro _ mem
  obtain ⟨data, here, rfl⟩ := mem_map.mp mem
  simpa [ascii] using (written data here).nonempty

theorem cut_frames (written : ∀ data ∈ datas, Written data) :
    Splitting.cut blankLine (ascii (datas.flatMap sse)) =
      ⟨datas.map fun data => ascii (line data), []⟩ := by
  induction datas with
  | nil => rfl
  | cons data _ ih =>
    have now := written data mem_cons_self
    rw [flatMap_cons, ascii_append, ascii_sse,
      Splitting.cut_first (by decide) (blankLine_first now.line),
      ih fun other mem =>
        written other (mem_cons_of_mem _ mem)]
    rfl

theorem consume_bodies (payloads : List Payload) :
    consume ((frames payloads).map fun data => ascii (body data)) = (payloads.flatMap fun payload =>
        eventsFromFrame (denote (.dict payload)), true) := by
  induction payloads with
  | nil => rfl
  | cons payload _ ih =>
    have notDone : ascii (body (.object payload)) ≠ ascii done := by
      intro same
      have heads := congrArg List.head? same
      have differs : some (unit '{') ≠ some (unit '[') := by decide
      exact differs heads
    have parsed : parseJson (ascii (body (.object payload))) = some (denote (.dict payload)) :=
      parseJson_dumps (.dict payload)
    rw [frames] at ih ⊢
    rw [map_cons, cons_append, map_cons, consume, if_neg notDone, parsed]
    simp only [ih, flatMap_cons]

theorem written_frames (payloads : List Payload) : ∀ data ∈ frames payloads, Written data := by
  intro _ mem
  rcases mem_append.mp mem with mem | mem
  · obtain ⟨_, _, rfl⟩ := mem_map.mp mem
    refine ⟨printable_dumps _, ?_, ?_, cons_ne_nil _ _⟩
    · intro _ first
      obtain rfl := Option.some.inj first
      decide
    · intro _ last
      rw [body, dumps_dict, ← cons_append, ascii_append] at last
      simp only [ascii_cons, ascii_nil, List.getLast?_concat] at last
      obtain rfl := Option.some.inj last
      decide
  · obtain rfl := mem_singleton.mp mem
    exact written_done

theorem textOf_encode {text : List Char} (plain : ∀ char ∈ text, char.toNat < 0x80) :
    textOf (Utf8.encode text) = ascii text :=
  congrArg ascii (Utf8.chars_encode plain)

theorem stream_eq (payloads : List Payload) :
    stream payloads = Utf8.encode ((frames payloads).flatMap sse) := by
  rw [Utf8.encode, flatMap_assoc]
  rfl

/-- However the response is cut into reads, the events are those of the
payloads in order, and the reading ends at the terminator. -/
theorem chatStreamEvents_stream (payloads : List Payload) (reads later : List (List UInt8))
    (cut : reads.flatten = stream payloads) :
    chatStreamEvents {} (reads ++ later) = (payloads.flatMap fun payload =>
        eventsFromFrame (denote (.dict payload)), true) := by
  have written := written_frames payloads
  have plain : ∀ char ∈ (frames payloads).flatMap sse, char.toNat < 0x80 := by
    intro char member
    obtain ⟨data, present, inside⟩ := mem_flatMap.mp member
    rcases mem_append.mp inside with inside | inside
    · have := (written data present).line char inside
      omega
    · have all : ∀ char ∈ "\n\n".toList, char.toNat < 0x80 := forall_mem (by decide)
      exact all char inside
  have small : ∀ byte ∈ reads.flatten, byte.toNat < 0x80 := by
    rw [cut, stream_eq]
    exact Utf8.encode_small plain
  have text : textOf reads.flatten = ascii ((frames payloads).flatMap sse) := by
    rw [cut, stream_eq, textOf_encode plain]
  have consumed : consume (yielded (Splitting.cut blankLine
      (([] : Str) ++ textOf reads.flatten)).parts) = (payloads.flatMap fun payload =>
          eventsFromFrame (denote (.dict payload)), true) := by
    rw [nil_append, text, cut_frames written, yielded_lines written]
    exact consume_bodies payloads
  rw [chatStreamEvents_cut ready_start small later (by rw [consumed])]
  exact consumed

def contentChunk : Payload := chunk (text "chatcmpl-1") 1700000000 (text "m")
    [(text "content", .str (text "é\n\n"))] none

theorem chatStreamEvents_stream_chunk :
    [(stream [contentChunk]).take 9, [], (stream [contentChunk]).drop 9].flatten
        = stream [contentChunk] ∧
      chatStreamEvents {} ([(stream [contentChunk]).take 9, [],
            (stream [contentChunk]).drop 9] ++ []) =
        ([.delta (utf16 0xe9 ++ lit "\n\n")], true) := by
  have cut : [(stream [contentChunk]).take 9, [],
      (stream [contentChunk]).drop 9].flatten = stream [contentChunk] := by
    simp
  refine ⟨cut, (chatStreamEvents_stream [contentChunk] _ [] cut).trans ?_⟩
  decide +kernel

end Gridix.Sse
